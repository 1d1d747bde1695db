import ClipFerry.Product.PasteSystem

namespace ClipFerry.Client

open Protocol Server

variable {κ : Type}

def Registry.StartedIn (registry : Registry κ) (all : List Nat) : Prop :=
  ∃ s ∈ all, ∃ source, registry.sources[s]? = some source ∧ source.hasStarted = true

def Registry.HasStarted (registry : Registry κ) : Prop := registry.StartedIn registry.remembered

def GroupPc.Tracks (registry : Registry κ) (op : GroupOp) : GroupPc κ → Prop
  | .start => True
  | .scanning todo found => (∀ s ∈ todo, s ∈ registry.remembered) ∧
      (found ≠ [] → registry.HasStarted) ∧
      (registry.groupPaused = true → found ≠ [] ∨ registry.StartedIn todo)
  | .cancelFlag _ => op ≠ .pauseAll
  | .storing _ => op = .pauseAll → registry.HasStarted
  | .controlling _ _ _ _ _ | .aggregating _ _ _ _ _ | .done _ =>
    op ≠ .pauseAll → registry.groupPaused = false

structure Registry.Grows (registry registry' : Registry κ) : Prop where
  remembered : registry'.remembered = registry.remembered
  paused : registry'.groupPaused = registry.groupPaused
  started : ∀ (s : Nat) (source : RemoteSource κ), registry.sources[s]? = some source →
    source.hasStarted = true → ∃ source', registry'.sources[s]? = some source' ∧
      source'.hasStarted = true

variable {registry registry' : Registry κ} {op : GroupOp} {pc pc' : GroupPc κ}

theorem Registry.Grows.hasStarted (h : registry.Grows registry') (hstarted : registry.HasStarted) :
    registry'.HasStarted := by
  obtain ⟨s, hs, source, hsource, hbegan⟩ := hstarted
  obtain ⟨source', hsource', hbegan'⟩ := h.started s source hsource hbegan
  exact ⟨s, h.remembered ▸ hs, source', hsource', hbegan'⟩

theorem GroupPc.Tracks.grows (htracks : pc.Tracks registry op) (h : registry.Grows registry') :
    pc.Tracks registry' op := by
  cases pc with
  | start => trivial
  | scanning todo found =>
    obtain ⟨hlisted, hfound, hsearch⟩ := htracks
    refine ⟨fun s hs => h.remembered ▸ hlisted s hs, fun hne => h.hasStarted (hfound hne), ?_⟩
    intro hpaused
    rcases hsearch (h.paused ▸ hpaused) with hne | ⟨s, hs, source, hsource, hbegan⟩
    · exact .inl hne
    · exact .inr ⟨s, hs, h.started s source hsource hbegan⟩
  | cancelFlag all => exact htracks
  | storing all => exact fun hop => h.hasStarted (htracks hop)
  | controlling all s sub rest total | aggregating all s sub rest total | done result =>
    intro hop
    rw [h.paused]
    exact htracks hop

theorem Registry.Grows.setSource {s : Nat} {source source' : RemoteSource κ}
    (hsource : registry.sources[s]? = some source)
    (hkept : source'.transfer = source.transfer ∨ ∃ c, source'.transfer = some c) :
    registry.Grows (registry.setSource s source') := by
  refine ⟨rfl, rfl, fun r found hfound hbegan => ?_⟩
  have hget := @ClientWorld.getElem?_setSource κ ⟨registry, []⟩ s r source source' hsource
  by_cases hrs : r = s
  · subst hrs
    cases hfound.symm.trans hsource
    refine ⟨source', hget.trans (if_pos rfl), ?_⟩
    rcases hkept with hsame | ⟨c, hc⟩
    · exact (congrArg Option.isSome hsame).trans hbegan
    · exact congrArg Option.isSome hc
  · exact ⟨found, (hget.trans (if_neg hrs)).trans hfound, hbegan⟩

theorem Registry.hasStarted_rememberSource (source : RemoteSource κ)
    (h : registry.StartedIn (registry.remembered.drop
      (registry.remembered.length + 1 - maxBeginNonces))) :
    (registry.rememberSource source).HasStarted := by
  obtain ⟨s, hs, found, hfound, hbegan⟩ := h
  refine ⟨s, ?_, found, ?_, hbegan⟩
  · rw [rememberSource, List.drop_append]
    exact List.mem_append_left _ hs
  · rw [rememberSource, List.getElem?_append_left (List.getElem?_eq_some_iff.mp hfound).1]
    exact hfound

theorem Registry.HasStarted.counted (h : registry.HasStarted) :
    registry.localProgress.startedTransfers ≠ 0 := by
  obtain ⟨s, hs, source, hsource, hbegan⟩ := h
  have hmem : source ∈ registry.rememberedSources := List.mem_filterMap.mpr ⟨s, hs, hsource⟩
  have hpos := List.countP_pos_iff.mpr ⟨source, hmem, hbegan⟩
  exact Nat.pos_iff_ne_zero.mp hpos

theorem Thread.setFocus_tracks {thread : Thread κ} {sub : SourcePc κ}
    (h : thread.setFocus sub = .group op pc') : ∃ pc, thread = .group op pc ∧
      (∀ registry : Registry κ, pc.Tracks registry op → pc'.Tracks registry op) ∧
      ((∀ result, pc' ≠ .done result) → ∀ result, pc ≠ .done result) := by
  cases thread with
  | source s task q => cases h
  | group op' q =>
    refine ⟨q, ?_, ?_⟩
    · cases q <;> cases h <;> rfl
    · cases q <;> cases h <;> refine ⟨fun _ => id, fun hlive result hdone => ?_⟩ <;>
        first | exact hlive result hdone | cases hdone

def GroupPc.late : GroupPc κ → Bool
  | .controlling _ _ _ _ _ | .aggregating _ _ _ _ _ | .done _ => true
  | _ => false

theorem GroupPc.tracks_of_late (hlate : pc.late = true)
    (h : op ≠ .pauseAll → registry.groupPaused = false) : pc.Tracks registry op := by
  cases pc with
  | controlling | aggregating | done => exact h
  | start | scanning | cancelFlag | storing => cases hlate

theorem GroupPc.late_startControls (op : GroupOp) (all : List Nat) :
    (op.startControls all : GroupPc κ).late = true := by
  cases op <;> cases all <;> rfl

theorem GroupPc.late_afterControl (registry : Registry κ) (op : GroupOp) (all rest : List Nat)
    (total : TransferGroupStatus) : (afterControl registry op all total rest).late = true := by
  cases rest with
  | nil => cases op <;> cases all <;> rfl
  | cons s rest => rfl

theorem GroupPc.late_afterStatus (all rest : List Nat) (total : TransferGroupStatus) :
    (afterStatus all total rest : GroupPc κ).late = true := by
  cases rest <;> rfl

theorem GroupPc.Tracks.advance (htracks : pc.Tracks registry op) (hop : op ≠ .statusAll)
    (hstarted : registry.groupPaused = true → registry.HasStarted)
    (h : pc.advance registry op = some (registry', pc')) :
    pc'.Tracks registry' op ∧ (registry'.groupPaused = true → registry'.HasStarted) ∧
      registry'.sources = registry.sources ∧ registry'.remembered = registry.remembered := by
  cases pc with
  | start =>
    cases h
    refine ⟨⟨fun s hs => hs, fun hne => absurd rfl hne, fun hpaused => .inr ?_⟩, hstarted, rfl, rfl⟩
    exact hstarted hpaused
  | scanning todo found =>
    obtain ⟨hlisted, hfound, hsearch⟩ := htracks
    cases todo with
    | nil =>
      cases found with
      | nil =>
        cases h
        refine ⟨fun _ => ?_, hstarted, rfl, rfl⟩
        apply Bool.eq_false_iff.mpr
        intro hpaused
        rcases hsearch hpaused with hne | ⟨s, hs, -⟩
        · exact hne rfl
        · cases hs
      | cons s found =>
        cases op with
        | statusAll => exact absurd rfl hop
        | cancelAll =>
          cases h
          exact ⟨fun hpause => (nomatch hpause), hstarted, rfl, rfl⟩
        | pauseAll | resumeAll =>
          cases h
          exact ⟨fun _ => hfound (List.cons_ne_nil _ _), hstarted, rfl, rfl⟩
    | cons s todo =>
      simp only [GroupPc.advance] at h
      have htail : ∀ r ∈ todo, r ∈ registry.remembered := fun r hr =>
        hlisted r (List.mem_cons_of_mem _ hr)
      split at h
      · rename_i hmissing
        cases h
        refine ⟨⟨htail, hfound, fun hpaused => ?_⟩, hstarted, rfl, rfl⟩
        rcases hsearch hpaused with hne | ⟨r, hr, source, hsource, hbegan⟩
        · exact .inl hne
        · rcases List.mem_cons.mp hr with rfl | htodo
          · cases hmissing.symm.trans hsource
          · exact .inr ⟨r, htodo, source, hsource, hbegan⟩
      · rename_i source hsource
        split at h
        · cases h
        · cases h
          refine ⟨⟨htail, fun hne => ?_, fun hpaused => ?_⟩, hstarted, rfl, rfl⟩
          · split at hne
            · rename_i hbegan
              exact ⟨s, hlisted s List.mem_cons_self, source, hsource, hbegan⟩
            · exact hfound hne
          · rcases hsearch hpaused with hne | ⟨r, hr, other, hother, hbegan⟩
            · left
              split
              · simp
              · exact hne
            · rcases List.mem_cons.mp hr with rfl | htodo
              · cases hsource.symm.trans hother
                left
                rw [if_pos (show source.transfer.isSome = true from hbegan)]
                simp
              · exact .inr ⟨r, htodo, other, hother, hbegan⟩
  | cancelFlag all =>
    cases h
    exact ⟨fun hpause => absurd hpause htracks, hstarted, rfl, rfl⟩
  | storing all =>
    cases h
    refine ⟨tracks_of_late (late_startControls op all) fun hne => decide_eq_false hne,
      fun hpaused => htracks (of_decide_eq_true hpaused), rfl, rfl⟩
  | controlling all s sub rest total =>
    cases sub with
    | done result =>
      cases result with
      | ok status =>
        cases h
        exact ⟨tracks_of_late (late_afterControl _ _ _ _ _) htracks, hstarted, rfl, rfl⟩
      | error error =>
        cases h
        refine ⟨?_, hstarted, rfl, rfl⟩
        split
        · exact tracks_of_late (late_afterControl _ _ _ _ _) htracks
        · exact htracks
    | _ => cases h
  | aggregating all s sub rest total =>
    cases sub with
    | done result =>
      cases result with
      | ok status =>
        cases h
        exact ⟨tracks_of_late (late_afterStatus _ _ _) htracks, hstarted, rfl, rfl⟩
      | error error =>
        cases h
        exact ⟨htracks, hstarted, rfl, rfl⟩
    | _ => cases h
  | done result => cases h

end ClipFerry.Client

namespace ClipFerry.Product

open VirtualTree Protocol Server Local Settings Client Transition

variable {κ : Type}

namespace ProductSession

variable {session : ProductSession} {outside : Outside κ}

theorem refreshProgress_remote (session : ProductSession) (outside : Outside κ) (now : Nat) :
    (session.refreshProgress outside now).remote = session.remote := by
  rw [refreshProgress]
  split
  · rfl
  · exact (session.smooth_same now _).remote

theorem recordControl_remote (session : ProductSession) (result : Except IoError Unit) :
    (session.recordControl result).remote = session.remote := by cases result <;> rfl

def takes (session : ProductSession) (answers : AcceptAnswers) : WorkerEvent → Bool
  | .remoteOffer announcement => announcement.peer = session.settings.activePeer &&
      session.settings.autoReceive &&
      ((session.receiveOffer announcement).acceptedManifest answers).isOk
  | .announcementResult _ => false

theorem acceptPending_remote {registry : Nat} {answers : AcceptAnswers} {session' : ProductSession}
    {result : Except IoError Unit}
    (h : session.acceptPending registry answers = (session', result)) :
    session'.remote = session.remote ∨ ((session.acceptedManifest answers).isOk = true ∧
      ∃ manifest, session'.remote = some ⟨registry, manifest⟩) := by
  rw [acceptPending] at h
  split at h <;> cases h
  · exact .inl rfl
  · rename_i manifest hmanifest
    exact .inr ⟨by rw [hmanifest]; rfl, manifest, rfl⟩

theorem handleEvent_remote (session : ProductSession) (registry : Nat) (answers : AcceptAnswers)
    (event : WorkerEvent) : (session.handleEvent registry answers event).remote = session.remote ∨
      (session.takes answers event = true ∧
        ∃ manifest, (session.handleEvent registry answers event).remote =
          some ⟨registry, manifest⟩) := by
  unfold handleEvent
  split
  · rename_i announcement
    split
    · exact .inl rfl
    · rename_i hpeer
      have htakes : session.settings.autoReceive = true →
          ((session.receiveOffer announcement).acceptedManifest answers).isOk = true →
          session.takes answers (.remoteOffer announcement) = true := by
        intro hauto hok
        simp [takes, Decidable.not_not.mp hpeer, hauto, hok]
      split
      · rename_i hauto
        split
        · rename_i accepted heq
          exact (acceptPending_remote heq).imp_right fun h => ⟨htakes hauto h.1, h.2⟩
        · rename_i refused error heq
          exact (acceptPending_remote heq).imp_right fun h => ⟨htakes hauto h.1, h.2⟩
      · exact .inl rfl
  · exact .inl rfl
  · exact .inl rfl

theorem publishPaths_remote {toLowercase : Char → Text} {windowsText : HResult → String}
    {answers : PublishAnswers} {session' : ProductSession} {result : Except IoError Unit}
    (h : session.publishPaths toLowercase windowsText answers = (session', result)) :
    session'.remote = session.remote := by
  unfold publishPaths at h
  split at h
  · cases h
    rfl
  · split at h
    · cases h
      rfl
    · split at h <;> cases h <;> rfl

theorem handleClipboardUpdate_remote {toLowercase : Char → Text} {windowsText : HResult → String}
    {observed : UInt32} {leaseCurrent : Bool} {capture : ClipboardCapture}
    {answers : PublishAnswers} :
    (session.handleClipboardUpdate toLowercase windowsText observed leaseCurrent capture
      answers).remote = session.remote := by
  unfold handleClipboardUpdate
  simp only
  split
  · rfl
  · split
    · rfl
    · rfl
    · rfl
    · split
      · rename_i published heq
        have hpublish := publishPaths_remote heq
        exact hpublish
      · rename_i refused error heq
        have hpublish := publishPaths_remote heq
        exact hpublish

end ProductSession

def PasteSystem.current (system : PasteSystem κ) : Option Nat :=
  system.session.remote.map (·.registry)

structure PasteSystem.Sound (system : PasteSystem κ) : Prop where
  leased {r : Nat} : system.current = some r → r < system.groups.length
  busy {r t : Nat} : system.busy = some (r, t) → system.current = some r
  working {r t : Nat} {group : Group κ} {op : GroupOp} {pc : GroupPc κ} :
    system.groups[r]? = some group → group.client.threads[t]? = some (.group op pc) →
      (∀ result, pc ≠ .done result) → system.busy = some (r, t)
  tracks {r t : Nat} {group : Group κ} {op : GroupOp} {pc : GroupPc κ} :
    system.busy = some (r, t) → system.groups[r]? = some group →
      group.client.threads[t]? = some (.group op pc) →
      op ≠ .statusAll ∧ pc.Tracks group.client.registry op
  started {r : Nat} {group : Group κ} : system.groups[r]? = some group →
    group.client.registry.groupPaused = true → group.client.registry.HasStarted
  held {r : Nat} {group : Group κ} : system.groups[r]? = some group →
    group.client.registry.groupPaused = true → group.streams ≠ [] → system.current = some r

def PasteSystem.accepts (system : PasteSystem κ) : PasteLabel κ → Bool
  | .event event answers => system.session.takes answers event
  | .accept answers => (system.session.acceptedManifest answers).isOk
  | _ => false

/-! The steps that keep a paused paste in hand: no offer takes its place while streams of it are
open, no stream is opened on a paused registry that was given up, and opening a stream leaves a
started one among those a group call finds. -/

structure PasteSystem.Calm (system : PasteSystem κ) (label : PasteLabel κ) : Prop where
  accepted {r : Nat} {group : Group κ} : system.accepts label = true →
    system.current = some r → system.groups[r]? = some group →
    group.client.registry.groupPaused = true → group.streams = []
  opened {r : Nat} {group : Group κ} : label = .openStream r → system.groups[r]? = some group →
    group.client.registry.groupPaused = true → system.current = some r
  remembered {r : Nat} {group : Group κ} : label = .openStream r →
    system.groups[r]? = some group → group.client.registry.groupPaused = true ∨
      (∃ all, .group .pauseAll (.storing all) ∈ group.client.threads) →
    group.client.registry.StartedIn (group.client.registry.remembered.drop
      (group.client.registry.remembered.length + 1 - maxBeginNonces))

def CalmStep (system : PasteSystem κ) (label : PasteLabel κ) (system' : PasteSystem κ) : Prop :=
  PasteStep system label system' ∧ system.Calm label

namespace PasteSystem

variable {system : PasteSystem κ} {session : ProductSession} {r t : Nat} {group group' : Group κ}

theorem current_of_lease {lease : ProductRemoteLease} (h : system.session.remote = some lease) :
    system.current = some lease.registry := by
  rw [current, h]
  rfl

theorem Sound.setGroup (h : system.Sound) (hgroup : system.groups[r]? = some group)
    (hworking : ∀ {t op pc}, group'.client.threads[t]? = some (.group op pc) →
      (∀ result, pc ≠ .done result) → system.busy = some (r, t))
    (htracks : ∀ {t op pc}, system.busy = some (r, t) →
      group'.client.threads[t]? = some (.group op pc) →
      op ≠ .statusAll ∧ pc.Tracks group'.client.registry op)
    (hstarted : group'.client.registry.groupPaused = true → group'.client.registry.HasStarted)
    (hheld : group'.client.registry.groupPaused = true → group'.streams ≠ [] →
      system.current = some r) : (system.setGroup r group').Sound := by
  have hcases : ∀ {q found}, (system.setGroup r group').groups[q]? = some found →
      (q = r ∧ found = group') ∨ system.groups[q]? = some found := by
    intro q found hfound
    exact (Position.set_cases hfound).imp_right fun hold => hold.2
  constructor
  · intro q hq
    rw [PasteSystem.setGroup, List.length_set]
    exact h.leased hq
  · exact fun hbusy => h.busy hbusy
  · intro q u found op pc hfound hthread hlive
    rcases hcases hfound with ⟨rfl, rfl⟩ | hold
    · exact hworking hthread hlive
    · exact h.working hold hthread hlive
  · intro q u found op pc hbusy hfound hthread
    rcases hcases hfound with ⟨rfl, rfl⟩ | hold
    · exact htracks hbusy hthread
    · exact h.tracks hbusy hold hthread
  · intro q found hfound hpaused
    rcases hcases hfound with ⟨rfl, rfl⟩ | hold
    · exact hstarted hpaused
    · exact h.started hold hpaused
  · intro q found hfound hpaused hopen
    rcases hcases hfound with ⟨rfl, rfl⟩ | hold
    · exact hheld hpaused hopen
    · exact h.held hold hpaused hopen

theorem Sound.settle (h : system.Sound)
    (hidle : ∀ {r t : Nat} {group : Group κ} {op : GroupOp} {pc : GroupPc κ},
      system.groups[r]? = some group → group.client.threads[t]? = some (.group op pc) →
      ∃ result, pc = .done result) {groups : List (Group κ)}
    (hgroups : groups = system.groups ∨ groups = system.groups ++ [⟨.empty, []⟩])
    (hleased : ∀ {r}, session.remote.map (·.registry) = some r → r < groups.length)
    (hkept : ∀ {r group}, system.current = some r → system.groups[r]? = some group →
      group.client.registry.groupPaused = true → group.streams ≠ [] →
      session.remote.map (·.registry) = some r) :
    (⟨session, groups, none⟩ : PasteSystem κ).Sound := by
  have hcases : ∀ {r : Nat} {found : Group κ}, groups[r]? = some found →
      system.groups[r]? = some found ∨ found = (⟨.empty, []⟩ : Group κ) := by
    intro r found hfound
    rcases hgroups with rfl | rfl
    · exact .inl hfound
    · exact (Position.concat_cases hfound).imp_right fun hnew => hnew.2
  constructor
  · exact fun hr => hleased hr
  · intro r t hbusy
    cases hbusy
  · intro r t found op pc hfound hthread hlive
    rcases hcases hfound with hold | rfl
    · obtain ⟨result, hdone⟩ := hidle hold hthread
      exact absurd hdone (hlive result)
    · cases hthread
  · intro r t found op pc hbusy
    cases hbusy
  · intro r found hfound hpaused
    rcases hcases hfound with hold | rfl
    · exact h.started hold hpaused
    · cases hpaused
  · intro r found hfound hpaused hopen
    rcases hcases hfound with hold | rfl
    · exact hkept (h.held hold hpaused hopen) hold hpaused hopen
    · cases hpaused

theorem Sound.idle (h : system.Sound) (hidle : system.busy = none) {op : GroupOp}
    {pc : GroupPc κ} (hgroup : system.groups[r]? = some group)
    (hthread : group.client.threads[t]? = some (.group op pc)) : ∃ result, pc = .done result := by
  by_contra hlive
  have hbusy := h.working hgroup hthread fun result hdone => hlive ⟨result, hdone⟩
  cases hidle.symm.trans hbusy

theorem Sound.keep (h : system.Sound)
    (hidle : ∀ {r t : Nat} {group : Group κ} {op : GroupOp} {pc : GroupPc κ},
      system.groups[r]? = some group → group.client.threads[t]? = some (.group op pc) →
      ∃ result, pc = .done result)
    (hremote : session.remote = system.session.remote) :
    (⟨session, system.groups, none⟩ : PasteSystem κ).Sound := by
  have hsame := congrArg (Option.map (·.registry)) hremote
  exact h.settle hidle (.inl rfl) (fun hr => h.leased (hsame.symm.trans hr))
    fun hr _ _ _ => hsame.trans hr

theorem Sound.swap (h : system.Sound) (hidle : system.busy = none)
    (hremote : session.remote = system.session.remote) :
    ({ system with session := session } : PasteSystem κ).Sound := by
  have hkeep := h.keep (h.idle hidle) hremote
  rwa [← hidle] at hkeep

theorem Sound.become (h : system.Sound) (hidle : system.busy = none) {accepts : Bool}
    (hremote : session.remote = system.session.remote ∨ (accepts = true ∧
      ∃ manifest, session.remote = some ⟨system.groups.length, manifest⟩))
    (haccepted : ∀ {r : Nat} {group : Group κ}, accepts = true → system.current = some r →
      system.groups[r]? = some group → group.client.registry.groupPaused = true →
      group.streams = []) : (system.become session).Sound := by
  rcases hremote with hsame | ⟨haccepts, manifest, hnew⟩
  · have hold : session.remote.any (fun lease => lease.registry = system.groups.length) = false := by
      rw [hsame]
      cases hlease : system.session.remote with
      | none => rfl
      | some lease =>
        have hlt := h.leased (current_of_lease hlease)
        simpa using Nat.ne_of_lt hlt
    rw [PasteSystem.become, hold]
    exact h.swap hidle hsame
  · have hfresh : session.remote.any (fun lease => lease.registry = system.groups.length) = true := by
      simp [hnew]
    have hsettled : (⟨session, system.groups ++ [⟨.empty, []⟩], none⟩ : PasteSystem κ).Sound := by
      refine h.settle (h.idle hidle) (.inr rfl) ?_ ?_
      · intro r hr
        rw [hnew] at hr
        cases hr
        simp
      · exact fun hr hgroup hpaused hopen => absurd (haccepted haccepts hr hgroup hpaused) hopen
    rw [PasteSystem.become, if_pos hfresh]
    rwa [← hidle] at hsettled

theorem Sound.drop (h : system.Sound) (hidle : system.busy = none) {lease : ProductRemoteLease}
    (hlease : system.session.remote = some lease)
    (hgroup : system.groups[lease.registry]? = some group)
    (hnone : group.client.registry.localProgress.startedTransfers = 0)
    (hremote : session.remote = none) :
    ({ system with session := session } : PasteSystem κ).Sound := by
  have hsettled : (⟨session, system.groups, none⟩ : PasteSystem κ).Sound := by
    refine h.settle (h.idle hidle) (.inl rfl) ?_ ?_
    · intro r hr
      rw [hremote] at hr
      cases hr
    · intro r found hr hfound hpaused
      cases (current_of_lease hlease).symm.trans hr
      cases hgroup.symm.trans hfound
      exact absurd hnone (h.started hgroup hpaused).counted
  rwa [← hidle] at hsettled

theorem Sound.engage (h : system.Sound) (hidle : system.busy = none)
    (hcurrent : system.current = some r) (hgroup : system.groups[r]? = some group) :
    ({ system with busy := some (r, group.client.threads.length) } : PasteSystem κ).Sound where
  leased hr := h.leased hr
  busy hbusy := by
    cases hbusy
    exact hcurrent
  working hfound hthread hlive := by
    cases hidle.symm.trans (h.working hfound hthread hlive)
  tracks hbusy hfound hthread := by
    cases hbusy
    cases hgroup.symm.trans hfound
    exact absurd (List.getElem?_eq_some_iff.mp hthread).1 (Nat.lt_irrefl _)
  started hfound hpaused := h.started hfound hpaused
  held hfound hpaused hopen := h.held hfound hpaused hopen

theorem Sound.openStream (h : system.Sound) (hgroup : system.groups[r]? = some group)
    (hfree : group.client.RegistryFree) {source : RemoteSource κ} {streams : List Nat}
    (hopened : group.client.registry.groupPaused = true → system.current = some r)
    (hremembered : group.client.registry.groupPaused = true ∨
      (∃ all, .group .pauseAll (.storing all) ∈ group.client.threads) →
      (group.client.registry.rememberSource source).HasStarted) :
    (system.setGroup r ⟨{ group.client with
      registry := group.client.registry.rememberSource source }, streams⟩).Sound := by
  refine h.setGroup hgroup (fun hthread hlive => h.working hgroup hthread hlive) ?_
    (fun hpaused => hremembered (.inl hpaused)) (fun hpaused _ => hopened hpaused)
  intro t op pc hbusy hthread
  obtain ⟨hop, htracks⟩ := h.tracks hbusy hgroup hthread
  refine ⟨hop, ?_⟩
  cases pc with
  | start => trivial
  | scanning todo found => cases hfree _ (List.mem_of_getElem? hthread)
  | storing all =>
    rintro rfl
    exact hremembered (.inr ⟨all, List.mem_of_getElem? hthread⟩)
  | cancelFlag all | controlling all s sub rest total | aggregating all s sub rest total
  | done result => exact htracks

theorem Sound.call (h : system.Sound) (hgroup : system.groups[r]? = some group)
    {client : ClientWorld κ} {label : ClientLabel κ} (hlabel : label.thread = some t)
    (hstep : ClientStep group.client label client) :
    (system.setGroup r { group with client := client }).Sound := by
  have hfocused : ∀ {s thread pc pc' source source'}, group.client.threads[t]? = some thread →
      thread.focus = some (s, pc) → group.client.registry.sources[s]? = some source →
      (source'.transfer = source.transfer ∨ ∃ c, source'.transfer = some c) →
      (system.setGroup r { group with client := ⟨group.client.registry.setSource s source',
        group.client.threads.set t (thread.setFocus pc')⟩ }).Sound := by
    intro s thread pc pc' source source' hthread hfocus hsource hkept
    have hgrows := Registry.Grows.setSource hsource hkept
    have hheld := h.held hgroup
    have hback : ∀ {u : Nat} {op : GroupOp} {q : GroupPc κ},
        (group.client.threads.set t (thread.setFocus pc'))[u]? = some (.group op q) →
        ∃ q', group.client.threads[u]? = some (.group op q') ∧
          (∀ registry : Registry κ, q'.Tracks registry op → q.Tracks registry op) ∧
          ((∀ result, q ≠ .done result) → ∀ result, q' ≠ .done result) := by
      intro u op q hfound
      rcases Position.set_cases hfound with ⟨rfl, hset⟩ | ⟨-, hold⟩
      · obtain ⟨q', rfl, hq'⟩ := Thread.setFocus_tracks hset.symm
        exact ⟨q', hthread, hq'⟩
      · exact ⟨q, hold, fun _ => id, id⟩
    refine h.setGroup hgroup ?_ ?_ (fun hpaused => hgrows.hasStarted (h.started hgroup hpaused))
      hheld
    · intro u op q hfound hlive
      obtain ⟨q', hold, -, hlive'⟩ := hback hfound
      exact h.working hgroup hold (hlive' hlive)
    · intro u op q hbusy hfound
      obtain ⟨q', hold, htracks, -⟩ := hback hfound
      obtain ⟨hop, htracks'⟩ := h.tracks hbusy hgroup hold
      exact ⟨hop, htracks _ (htracks'.grows hgrows)⟩
  cases hstep with
  | spawn => cases hlabel
  | remember => cases hlabel
  | source hthread hfocus hsource hadvance =>
    cases hlabel
    exact hfocused hthread hfocus hsource (.inl (SourcePc.advance_kept hadvance).2.2)
  | answer hthread hfocus hsource hanswer =>
    cases hlabel
    refine hfocused hthread hfocus hsource ?_
    rcases (SourcePc.answer_kept hanswer).2.2 with hsame | ⟨c, -, -, hbegan⟩
    · exact .inl hsame
    · exact .inr ⟨c, hbegan⟩
  | @group t' op pc pc' registry hthread hfree hadvance =>
    cases hlabel
    have hlive : ∀ result, pc ≠ .done result := by
      rintro result rfl
      cases hadvance
    have hbusy := h.working hgroup hthread hlive
    obtain ⟨hop, htracks⟩ := h.tracks hbusy hgroup hthread
    obtain ⟨htracks', hstarted, hsources, hremembered⟩ :=
      htracks.advance hop (h.started hgroup) hadvance
    have hcurrent := h.busy hbusy
    refine h.setGroup hgroup ?_ ?_ hstarted (fun _ _ => hcurrent)
    · intro u op' q hfound hlive'
      rcases Position.set_cases hfound with ⟨rfl, -⟩ | ⟨-, hold⟩
      · exact hbusy
      · exact h.working hgroup hold hlive'
    · intro u op' q hbusy' hfound
      cases hbusy.symm.trans hbusy'
      rcases Position.set_cases hfound with ⟨-, hset⟩ | ⟨hut, -⟩
      · cases hset
        exact ⟨hop, htracks'⟩
      · exact absurd rfl hut

theorem Sound.step {label : PasteLabel κ} {system' : PasteSystem κ} (h : system.Sound)
    (hstep : CalmStep system label system') : system'.Sound := by
  obtain ⟨hstep, hcalm⟩ := hstep
  cases hstep with
  | event hidle event answers =>
    exact h.become hidle (ProductSession.handleEvent_remote _ _ _ _) hcalm.accepted
  | accept hidle answers recovery metrics now haccept =>
    refine h.become hidle ?_ hcalm.accepted
    rw [ProductSession.refreshProgress_remote, ProductSession.recordControl_remote]
    exact ProductSession.acceptPending_remote haccept
  | refuse hidle hcommand hnone recovery metrics now =>
    refine h.swap hidle ?_
    rw [ProductSession.refreshProgress_remote, ProductSession.recordControl_remote]
  | drop hidle hlease hgroup hnone recovery metrics now =>
    refine h.drop hidle hlease hgroup hnone ?_
    rw [ProductSession.refreshProgress_remote]
    rfl
  | clipboard hidle toLowercase windowsText observed leaseCurrent capture answers =>
    exact h.swap hidle ProductSession.handleClipboardUpdate_remote
  | timer hidle recovery metrics now =>
    exact h.swap hidle (ProductSession.refreshProgress_remote _ _ _)
  | @command hidle lease hlease group hgroup command op hop hstarted =>
    have hcurrent := current_of_lease hlease
    have hpaste := h.started hgroup
    refine (h.engage hidle hcurrent hgroup).setGroup hgroup ?_ ?_ hpaste (fun _ _ => hcurrent)
    · intro t op' pc hthread hlive
      rcases Position.concat_cases hthread with hold | ⟨rfl, -⟩
      · cases hidle.symm.trans (h.working hgroup hold hlive)
      · rfl
    · intro t op' pc hbusy hthread
      cases hbusy
      rcases Position.concat_cases hthread with hold | ⟨-, hnew⟩
      · exact absurd (List.getElem?_eq_some_iff.mp hold).1 (Nat.lt_irrefl _)
      · cases hnew
        refine ⟨?_, trivial⟩
        rintro rfl
        cases command <;> cases hop
  | @finish r t hbusy group hgroup op result hdone recovery metrics now =>
    refine h.keep ?_ ?_
    · intro q u found op' pc hfound hthread
      by_contra hlive
      have hother := h.working hfound hthread fun result hresult => hlive ⟨result, hresult⟩
      cases hbusy.symm.trans hother
      cases hgroup.symm.trans hfound
      cases hdone.symm.trans hthread
      exact hlive ⟨result, rfl⟩
    · rw [ProductSession.refreshProgress_remote, ProductSession.recordControl_remote]
  | openStream hgroup hfree connection manifest entry =>
    exact h.openStream hgroup hfree (hcalm.opened rfl hgroup) fun hpaused =>
      Registry.hasStarted_rememberSource _ (hcalm.remembered rfl hgroup hpaused)
  | @closeStream r s group hgroup =>
    have hstarted := h.started hgroup
    have htracks : ∀ {t : Nat} {op : GroupOp} {pc : GroupPc κ}, system.busy = some (r, t) →
        group.client.threads[t]? = some (.group op pc) →
        op ≠ .statusAll ∧ pc.Tracks group.client.registry op :=
      fun hbusy hthread => h.tracks hbusy hgroup hthread
    refine h.setGroup hgroup (fun hthread hlive => h.working hgroup hthread hlive) htracks hstarted
      fun hpaused hopen => ?_
    refine h.held hgroup hpaused fun hnil => hopen ?_
    exact congrArg (List.erase · _) hnil
  | read hgroup hopen offset length =>
    have hstarted := h.started hgroup
    have hheld := h.held hgroup
    refine h.setGroup hgroup ?_ ?_ hstarted hheld
    · intro t op pc hthread hlive
      rcases Position.concat_cases hthread with hold | ⟨-, hnew⟩
      · exact h.working hgroup hold hlive
      · cases hnew
    · intro t op pc hbusy hthread
      rcases Position.concat_cases hthread with hold | ⟨-, hnew⟩
      · have htracks := h.tracks hbusy hgroup hold
        exact htracks
      · cases hnew
  | client hgroup hlabel hstep => exact h.call hgroup hlabel hstep

theorem Sound.start (session : ProductSession) (hremote : session.remote = none) :
    (PasteSystem.start session : PasteSystem κ).Sound := by
  have hnone : ∀ {r : Nat} {group : Group κ}, (PasteSystem.start session).groups[r]? ≠ some group :=
    fun h => by cases h
  refine ⟨?_, ?_, ?_, ?_, ?_, ?_⟩
  · intro r hr
    rw [PasteSystem.current, PasteSystem.start, hremote] at hr
    cases hr
  · intro r t hbusy
    cases hbusy
  · exact fun h => absurd h hnone
  · exact fun _ h => absurd h hnone
  · exact fun h => absurd h hnone
  · exact fun h => absurd h hnone

structure Controls (system : PasteSystem κ) (r : Nat) : Prop where
  acts {command : ProductCommand} {system' : PasteSystem κ} :
    PasteStep system (.command command) system' → ∃ t, system'.busy = some (r, t)
  taken {command : ProductCommand} : command ≠ .acceptPending → system.busy = none →
    ∃ system', PasteStep system (.command command) system'
  refused {command : ProductCommand} {system' : PasteSystem κ} :
    ¬PasteStep system (.refuse command) system'
  dropped {system' : PasteSystem κ} : ¬PasteStep system .drop system'

theorem controls_of_current (hcurrent : system.current = some r)
    (hgroup : system.groups[r]? = some group) (hstarted : group.client.registry.HasStarted) :
    system.Controls r := by
  have hlease : ∃ lease, system.session.remote = some lease ∧ lease.registry = r := by
    rwa [current, Option.map_eq_some_iff] at hcurrent
  obtain ⟨lease, hlease, rfl⟩ := hlease
  constructor
  · intro command system' h
    cases h with
    | command hidle hother hfound hop hnone =>
      cases hlease.symm.trans hother
      exact ⟨_, rfl⟩
  · intro command hcommand hidle
    have hop : ∃ op, command.groupOp = some op := by
      cases command with
      | acceptPending => exact absurd rfl hcommand
      | pause | resume | cancel => exact ⟨_, rfl⟩
    obtain ⟨op, hop⟩ := hop
    exact ⟨_, .command hidle hlease hgroup hop fun _ => hstarted.counted⟩
  · intro command system' h
    cases h with
    | refuse hidle hcommand hnone => cases hlease.symm.trans hnone
  · intro system' h
    cases h with
    | drop hidle hother hfound hnone =>
      cases hlease.symm.trans hother
      cases hgroup.symm.trans hfound
      exact hstarted.counted hnone

end PasteSystem

open PasteSystem in
theorem paused_paste_controllable {settings : AppSettings} {peerLabel : Text} {now : Nat}
    {labels : List (PasteLabel κ)} {system : PasteSystem κ}
    (h : Run CalmStep (.start (.start settings peerLabel now)) labels system) {r : Nat}
    {group : Group κ} (hgroup : system.groups[r]? = some group) :
    (group.client.registry.groupPaused = true → group.streams ≠ [] → system.Controls r) ∧
      ∀ (t : Nat) (op : GroupOp) (result : Except IoError TransferGroupStatus),
        system.busy = some (r, t) →
        group.client.threads[t]? = some (.group op (.done result)) → op ≠ .pauseAll →
        group.client.registry.groupPaused = false := by
  have hsound := h.invariant (fun hs hstep => hs.step hstep) (Sound.start _ rfl)
  constructor
  · intro hpaused hopen
    exact controls_of_current (hsound.held hgroup hpaused hopen) hgroup
      (hsound.started hgroup hpaused)
  · intro t op result hbusy hthread hop
    exact (hsound.tracks hbusy hgroup hthread).2 hop

def pasteManifest : OfferManifest :=
  ⟨repeatedId 9, [⟨repeatedId 1, .basic ['a'] 5⟩], fromMillis 1⟩

def pasteAnnouncement : OfferAnnouncement :=
  ⟨.v4 (soloHost 2) 45000, soloFingerprint⟩

def pasteAnswers : AcceptAnswers := ⟨.ok (), .ok pasteManifest, 0⟩

def pasteStart : PasteSystem Nat := .start (.start (soloSettings true) [] 0)

def pasteSource (transfer : Option Nat) (sequence readCalls : Nat) : RemoteSource Nat :=
  { (RemoteSource.new 0 pasteManifest ⟨repeatedId 1, .basic ['a'] 5⟩ : RemoteSource Nat) with
    transfer := transfer
    nextControlSequence := sequence
    readCalls := readCalls }

def pasteRead (pc : SourcePc Nat) : Thread Nat := .source 0 (.readAt 0 1) pc

def pasteReading : ClientWorld Nat :=
  ⟨⟨[pasteSource none 1 0], [0], false, false⟩, [pasteRead (.start (.readAt 0 1))]⟩

def pasteBegun : ClientWorld Nat :=
  ⟨⟨[pasteSource (some 0) 1 1], [0], false, false⟩, [pasteRead (.checkCancelled (.read 0 1) 0)]⟩

def pastePausing : ClientWorld Nat :=
  ⟨pasteBegun.registry, pasteBegun.threads ++ [.group .pauseAll .start]⟩

def pasteStatus : TransferGroupStatus := ⟨.paused, 1, 0, 1, 0, true⟩

def pastePaused : ClientWorld Nat :=
  ⟨⟨[pasteSource (some 0) 2 1], [0], true, false⟩,
    [pasteRead (.checkCancelled (.read 0 1) 0), .group .pauseAll (.done (.ok pasteStatus))]⟩

theorem pasteBegun_run : ∃ labels, (∀ label ∈ labels, ∃ t, label.thread = some t) ∧
    Run ClientStep pasteReading labels pasteBegun := by
  have h := (@Run.nil _ _ ClientStep pasteReading)
    |>.snoc (.source (t := 0) rfl rfl rfl rfl) |>.snoc (.source (t := 0) rfl rfl rfl rfl)
    |>.snoc (.source (t := 0) rfl rfl rfl rfl) |>.snoc (.source (t := 0) rfl rfl rfl rfl)
    |>.snoc (a := .answer 0 (.began 0)) (.answer rfl rfl rfl rfl)
  exact ⟨_, by simp [ClientLabel.thread], h⟩

theorem pastePaused_run : ∃ labels, (∀ label ∈ labels, ∃ t, label.thread = some t) ∧
    Run ClientStep pastePausing labels pastePaused := by
  have h := (@Run.nil _ _ ClientStep pastePausing)
    |>.snoc (.group (t := 1) rfl (fun _ => ClientWorld.registryFree_of_all rfl) rfl)
    |>.snoc (.group (t := 1) rfl nofun rfl) |>.snoc (.group (t := 1) rfl nofun rfl)
    |>.snoc (.group (t := 1) rfl nofun rfl)
    |>.snoc (.source (t := 1) rfl rfl rfl rfl) |>.snoc (.source (t := 1) rfl rfl rfl rfl)
    |>.snoc (.source (t := 1) rfl rfl rfl rfl)
    |>.snoc (a := .answer 1 (.status ⟨.paused, 0⟩)) (.answer rfl rfl rfl rfl)
    |>.snoc (.group (t := 1) rfl nofun rfl)
    |>.snoc (.source (t := 1) rfl rfl rfl rfl) |>.snoc (.source (t := 1) rfl rfl rfl rfl)
    |>.snoc (a := .answer 1 (.status ⟨.paused, 0⟩)) (.answer rfl rfl rfl rfl)
    |>.snoc (.group (t := 1) rfl nofun rfl)
  exact ⟨_, by simp [ClientLabel.thread], h⟩

namespace PasteSystem.Calm

variable {system : PasteSystem κ} {label : PasteLabel κ}

theorem of_other (haccepts : system.accepts label = false)
    (hopen : ∀ r, label ≠ .openStream r) : system.Calm label := by
  constructor
  · intro r group h
    cases haccepts.symm.trans h
  · exact fun h => absurd h (hopen _)
  · exact fun h => absurd h (hopen _)

theorem of_unpaused (h : ∀ group ∈ system.groups,
    group.client.registry.groupPaused = false ∧ group.client.threads = []) :
    system.Calm label := by
  constructor
  · intro r group _ _ hgroup hpaused
    cases (h group (List.mem_of_getElem? hgroup)).1.symm.trans hpaused
  · intro r group _ hgroup hpaused
    cases (h group (List.mem_of_getElem? hgroup)).1.symm.trans hpaused
  · intro r group _ hgroup hpaused
    obtain ⟨hclear, hnone⟩ := h group (List.mem_of_getElem? hgroup)
    rcases hpaused with hpaused | ⟨all, hmem⟩
    · cases hclear.symm.trans hpaused
    · rw [hnone] at hmem
      cases hmem

end PasteSystem.Calm

theorem calm_run {system : PasteSystem κ} {r : Nat} {group : Group κ} {client : ClientWorld κ}
    {labels : List (ClientLabel κ)} (hgroup : system.groups[r]? = some group)
    (hlabels : ∀ label ∈ labels, ∃ t, label.thread = some t)
    (h : Run ClientStep group.client labels client) : ∃ labels',
      Run CalmStep system labels' (system.setGroup r { group with client := client }) := by
  have hlt := (List.getElem?_eq_some_iff.mp hgroup).1
  induction h with
  | nil =>
    have hsame : system.groups.set r group = system.groups := by
      rw [← (List.getElem?_eq_some_iff.mp hgroup).2, List.set_getElem_self]
    refine ⟨[], ?_⟩
    rw [PasteSystem.setGroup, hsame]
    exact .nil
  | @snoc before label middle client run last ih =>
    obtain ⟨labels', hrun⟩ := ih fun l hl => hlabels l (List.mem_append_left _ hl)
    obtain ⟨t, ht⟩ := hlabels label (by simp)
    have hmiddle : (system.setGroup r { group with client := middle }).groups[r]? =
        some { group with client := middle } := List.getElem?_set_self hlt
    have hstep := hrun.snoc ⟨.client hmiddle ht last,
      .of_other rfl (fun _ => nofun)⟩
    rw [PasteSystem.setGroup, PasteSystem.setGroup, List.set_set] at hstep
    exact ⟨_, hstep⟩

def pasteOutside : Nat → SecureRecoverySnapshot := fun _ => ⟨0, 0, 0⟩

def pasteMetrics : Nat → SecureMetricsSnapshot := fun _ => ⟨0, 0, 0⟩

def pasteTaken (session : ProductSession) (r : Nat) : ProductSession :=
  session.handleEvent r pasteAnswers (.remoteOffer pasteAnnouncement)

def pasteSession : ProductSession := pasteTaken pasteStart.session 0

def pasteSystem : PasteSystem Nat where
  session := (pasteSession.recordControl (.ok ())).refreshProgress
    (PasteSystem.outside ⟨pasteSession, [⟨pastePaused, [0]⟩], some (0, 1)⟩ pasteOutside
      pasteMetrics) 1
  groups := [⟨pastePaused, [0]⟩]
  busy := none

theorem pasteSystem_run : ∃ labels, Run CalmStep pasteStart labels pasteSystem := by
  have hread := (@Run.nil _ _ CalmStep pasteStart)
    |>.snoc ⟨.event rfl (.remoteOffer pasteAnnouncement) pasteAnswers,
      .of_unpaused fun group h => by cases h⟩
    |>.snoc ⟨.openStream (r := 0) rfl (ClientWorld.registryFree_of_all rfl) 0 pasteManifest
      ⟨repeatedId 1, .basic ['a'] 5⟩, .of_unpaused fun group h => by
        cases List.mem_singleton.mp h
        exact ⟨rfl, rfl⟩⟩
    |>.snoc ⟨.read (r := 0) (s := 0) rfl (List.mem_singleton_self 0) 0 1,
      .of_other rfl (fun _ => nofun)⟩
  obtain ⟨labels, hlabels, hbegun⟩ := pasteBegun_run
  obtain ⟨labels', hbegin⟩ := @calm_run _ ⟨pasteSession, [⟨pasteReading, [0]⟩], none⟩ 0
    ⟨pasteReading, [0]⟩ _ _ rfl hlabels hbegun
  have hcommand := (hread.append hbegin)
    |>.snoc ⟨@PasteStep.command _ _ rfl _ rfl _ rfl .pause _ rfl (fun h => by cases h),
      .of_other rfl (fun _ => nofun)⟩
  obtain ⟨last, hlabels', hpaused⟩ := pastePaused_run
  obtain ⟨pausing, hpause⟩ := @calm_run _ ⟨pasteSession, [⟨pastePausing, [0]⟩], some (0, 1)⟩ 0
    ⟨pastePausing, [0]⟩ _ _ rfl hlabels' hpaused
  have hfinish := (hcommand.append hpause)
    |>.snoc ⟨.finish (t := 1) rfl rfl rfl pasteOutside pasteMetrics 1,
      .of_other rfl (fun _ => nofun)⟩
  exact ⟨_, hfinish⟩

theorem paused_paste_controllable_one_stream : pasteSystem.Controls 0 := by
  obtain ⟨labels, hrun⟩ := pasteSystem_run
  exact (paused_paste_controllable (r := 0) hrun rfl).1 rfl (List.cons_ne_nil _ _)

/-! A read waits at the gate of a registry that an accepted offer has put out of reach. -/

theorem replaced_paste_out_of_reach : ∃ (labels : List (PasteLabel Nat)) (system : PasteSystem Nat)
    (group : Group Nat), Run PasteStep pasteStart labels system ∧
      system.groups[0]? = some group ∧ group.client.registry.groupPaused = true ∧
      group.streams = [0] ∧ group.client.threads[2]? = some (pasteRead (.gatePaused 0 1)) ∧
      ¬system.Controls 0 := by
  obtain ⟨labels, hpaused⟩ := pasteSystem_run
  have hreplaced := (hpaused.mono fun h => h.1)
    |>.snoc (.read (r := 0) (s := 0) rfl (List.mem_singleton_self 0) 0 1)
    |>.snoc (.client (r := 0) (t := 2) rfl rfl (.source rfl rfl rfl rfl))
    |>.snoc (.client (r := 0) (t := 2) rfl rfl (.source rfl rfl rfl rfl))
    |>.snoc (.event rfl (.remoteOffer pasteAnnouncement) pasteAnswers)
  refine ⟨_, _, _, hreplaced, rfl, rfl, rfl, rfl, fun hcontrols => ?_⟩
  obtain ⟨t, ht⟩ := hcontrols.acts (@PasteStep.command Nat _ rfl ⟨1, pasteManifest⟩ rfl
    ⟨.empty, []⟩ rfl .resume _ rfl (fun h => by cases h))
  cases ht

end ClipFerry.Product
