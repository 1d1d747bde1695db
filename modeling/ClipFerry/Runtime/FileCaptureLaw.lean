import ClipFerry.Local.Fenced
import ClipFerry.Runtime.FileCapture

namespace ClipFerry.Runtime

open VirtualTree Local Capture Product DataObject Checked Transition Client

variable {desk : Desk} {notice : CaptureNotice} {session session' : FileCaptureSession}
  {notices : List (Option CaptureNotice)} {world : LocalWorld} {offer : LocalFileOffer}
  {lease : CapturedLease} {tree : FileTreeSnapshot} {toLowercase : Char → Text}

structure Leased (desk : Desk) (notice : CaptureNotice) (lease : CapturedLease) : Prop where
  captured : ∃ paths tree, notice.clipboard.CopiedFiles desk.formats paths ∧
    notice.files.capture desk.lowercase desk.toLowercase paths = .ok tree ∧
      lease.offer.entries.map (·.snapshot) = tree.entries
  entries : lease.object.entries = lease.offer.entries.map (offeredEntry notice.factory)
  valid : ValidEntries lease.object.entries
  origin : lease.object.originPayload = lease.offer.originPayload

structure Orderly (desk : Desk) (notices : List (Option CaptureNotice))
    (session : FileCaptureSession) : Prop where
  current : session.registry.registry.current = session.lease.map (·.offer)
  leased : ∀ lease, session.lease = some lease →
    ∃ notice, some notice ∈ notices ∧ Leased desk notice lease

theorem serveReads_run (world : LocalWorld) (reads : List ServedRead) :
    ∃ labels, Run LocalStep world labels (serveReads world reads) ∧
      (serveReads world reads).registry = world.registry := by
  induction reads generalizing world with
  | nil => exact ⟨[], .nil, rfl⟩
  | cons read reads ih =>
    obtain ⟨labels, hrun, hregistry⟩ :=
      ih (world.readAt read.disk read.source read.offset read.length)
    have hfirst : Run LocalStep world [.readAt read.disk read.source read.offset read.length]
        (world.readAt read.disk read.source read.offset read.length) := .single rfl
    exact ⟨_, hfirst.append hrun, hregistry⟩

theorem registerLease_cases {served : LocalWorld} {result : Except HResult CapturedLease}
    (h : registerLease toLowercase notice world offer = (served, result)) :
    (∃ labels, Run LocalStep world labels served) ∧ served.registry = world.registry ∧
      ∀ lease, result = .ok lease → lease.offer = offer ∧
        lease.object.entries = offer.entries.map (offeredEntry notice.factory) ∧
        ValidEntries lease.object.entries ∧ lease.object.originPayload = offer.originPayload := by
  rw [registerLease] at h
  split at h
  · cases h
    exact ⟨⟨[], .nil⟩, rfl, fun _ h => by cases h⟩
  · next object hcreate =>
    split at h
    · cases h
      exact ⟨⟨[], .nil⟩, rfl, fun _ h => by cases h⟩
    · obtain ⟨labels, hrun, hregistry⟩ := serveReads_run world notice.reads
      dsimp only at h
      split at h
      · cases h
        exact ⟨⟨labels, hrun⟩, hregistry, fun _ h => by cases h⟩
      · cases h
        refine ⟨⟨labels, hrun⟩, hregistry, fun lease hlease => ?_⟩
        cases hlease
        obtain ⟨-, hvalid, hentries, horigin⟩ := createWithEntries_eq_ok hcreate
        rw [← hentries] at hvalid
        exact ⟨rfl, hentries, validEntries_of_ok hvalid, horigin⟩

structure Handled (desk : Desk) (notice : CaptureNotice) (session session' : FileCaptureSession) :
    Prop where
  run : ∃ labels, Run LocalStep session.registry labels session'.registry
  current : session'.registry.registry.current = session'.lease.map (·.offer)
  leased : ∀ lease, session'.lease = some lease → Leased desk notice lease

theorem acceptCandidates_handled {paths : List (List UInt16)} (hlease : session.lease = none)
    (hcurrent : session.registry.registry.current = none)
    (hcopied : notice.clipboard.CopiedFiles desk.formats paths) :
    Handled desk notice session (session.acceptCandidates desk notice paths) := by
  have hnone : ∀ lease, session.lease = some lease → Leased desk notice lease := by
    intro lease hsome
    rw [hlease] at hsome
    cases hsome
  have hkept : session.registry.registry.current = session.lease.map (·.offer) := by
    rw [hcurrent, hlease]
    rfl
  rw [FileCaptureSession.acceptCandidates]
  split
  · exact ⟨⟨[], .nil⟩, hkept, hnone⟩
  · next tree htree =>
    split
    · next world error hpublish =>
      have hsame : world = session.registry := by
        rw [LocalWorld.publishTree] at hpublish
        split at hpublish
        · cases hpublish
          rfl
        · cases hpublish
      subst hsame
      exact ⟨⟨[], .nil⟩, hkept, hnone⟩
    · next world offer hpublish =>
      have hpublished : Run LocalStep session.registry
          [.publishTree notice.guid tree session.offerTtl] world := by
        refine .single ?_
        rw [LocalStep, LocalWorld.apply, hpublish]
      obtain ⟨created, hcreate, hworld⟩ := LocalWorld.publishTree_cases hpublish
      obtain ⟨-, hentries, -⟩ := LocalWorld.createTree_cases hcreate
      have hoffered : world.registry.current = some offer := by
        rw [hworld, LocalWorld.registry_replaceCurrent]
      split
      · next served lease hregister =>
        obtain ⟨⟨labels, hrun⟩, hregistry, hleased⟩ := registerLease_cases hregister
        obtain ⟨hsame, hobject, hvalid, horigin⟩ := hleased lease rfl
        refine ⟨⟨_, hpublished.append hrun⟩, ?_, fun found hfound => ?_⟩
        · dsimp only
          rw [hregistry, hoffered, Option.map_some, hsame]
        · cases hfound
          subst hsame
          refine ⟨⟨paths, tree, hcopied, htree, ?_⟩, hobject, hvalid, horigin⟩
          rw [hentries, offerEntries_snapshots]
      · next served error hregister =>
        obtain ⟨⟨labels, hrun⟩, hregistry, -⟩ := registerLease_cases hregister
        have hrevoked : Run LocalStep served [.revokeCurrent] served.revokeCurrent := .single rfl
        refine ⟨⟨_, (hpublished.append hrun).append hrevoked⟩, ?_, hnone⟩
        have hempty : served.revokeCurrent.registry.current = none :=
          served.registry_replaceCurrent none
        change served.revokeCurrent.registry.current = session.lease.map (·.offer)
        rw [hempty, hlease]
        rfl

theorem handleClipboardUpdate_handled (desk : Desk) (session : FileCaptureSession)
    (notice : CaptureNotice) :
    session.handleClipboardUpdate desk notice = session ∨
      Handled desk notice session (session.handleClipboardUpdate desk notice) := by
  rw [FileCaptureSession.handleClipboardUpdate]
  split
  · exact .inl rfl
  · have hrevoked : Run LocalStep session.registry [.revokeCurrent]
        session.registry.revokeCurrent := .single rfl
    have hempty : session.registry.revokeCurrent.registry.current = none :=
      session.registry.registry_replaceCurrent none
    have hdropped : ∀ lease : CapturedLease, none = some lease → Leased desk notice lease := by
      intro lease h
      cases h
    refine .inr ?_
    dsimp only
    split
    · next paths sequence hcapture =>
      obtain ⟨hcopied, -⟩ := Clipboard.captureFiles_candidates_iff.mp hcapture
      have haccept := @acceptCandidates_handled desk notice
        { session with registry := session.registry.revokeCurrent, lease := none } paths rfl hempty
        hcopied
      obtain ⟨labels, hrun⟩ := haccept.run
      exact ⟨⟨_, hrevoked.append hrun⟩, haccept.current, haccept.leased⟩
    all_goals exact ⟨⟨_, hrevoked⟩, hempty, hdropped⟩

theorem CaptureStep.registry {label : Option CaptureNotice}
    (h : CaptureStep desk session label session') :
    ∃ labels, Run LocalStep session.registry labels session'.registry := by
  cases h with
  | update notice =>
    rcases handleClipboardUpdate_handled desk session notice with hsame | hhandled
    · rw [hsame]
      exact ⟨[], .nil⟩
    · exact hhandled.run
  | read read => exact ⟨[.readAt read.disk read.source read.offset read.length], .single rfl⟩
  | elapse duration => exact ⟨[.elapse duration], .single rfl⟩

theorem registry_run (h : Run (CaptureStep desk) session notices session') :
    ∃ labels, Run LocalStep session.registry labels session'.registry := by
  induction h with
  | nil => exact ⟨[], .nil⟩
  | snoc _ last ih =>
    obtain ⟨labels, hrun⟩ := ih
    obtain ⟨more, hmore⟩ := last.registry
    exact ⟨labels ++ more, hrun.append hmore⟩

theorem Orderly.step {label : Option CaptureNotice} (h : Orderly desk notices session)
    (hstep : CaptureStep desk session label session') :
    Orderly desk (notices ++ [label]) session' := by
  have hkept : ∀ lease, session.lease = some lease →
      ∃ notice, some notice ∈ notices ++ [label] ∧ Leased desk notice lease := by
    intro lease hlease
    obtain ⟨notice, hnotice, hleased⟩ := h.leased lease hlease
    exact ⟨notice, List.mem_append_left _ hnotice, hleased⟩
  cases hstep with
  | update notice =>
    rcases handleClipboardUpdate_handled desk session notice with hsame | hhandled
    · rw [hsame]
      exact ⟨h.current, hkept⟩
    · refine ⟨hhandled.current, fun lease hlease => ?_⟩
      exact ⟨notice, List.mem_append_right _ (List.mem_singleton.mpr rfl),
        hhandled.leased lease hlease⟩
  | read read => exact ⟨h.current, hkept⟩
  | elapse duration => exact ⟨h.current, hkept⟩

theorem orderly_of_run {offerTtl : Nat}
    (h : Run (CaptureStep desk) (.new offerTtl) notices session) :
    Orderly desk notices session := by
  refine Run.traced ⟨rfl, fun _ hlease => ?_⟩ (fun _ horderly hstep => horderly.step hstep) h
  cases hlease

theorem Leased.lists (h : Leased desk notice lease) (hdistinct : lease.object.formats.ids.Nodup) :
    ∃ paths tree, notice.clipboard.CopiedFiles desk.formats paths ∧
      notice.files.capture desk.lowercase desk.toLowercase paths = .ok tree ∧
        ∀ allocate, (∀ size, allocate size = .ok ()) → ListsTree lease.object allocate tree := by
  obtain ⟨paths, tree, hcopied, hcapture, hentries⟩ := h.captured
  refine ⟨paths, tree, hcopied, hcapture, fun allocate hallocate => ?_⟩
  have hoffers : Offers lease.object allocate := by
    refine ⟨h.valid, hdistinct, hallocate, fun entry hentry sourceFactory hsource attempt => ?_⟩
    rw [h.entries] at hentry
    obtain ⟨offered, -, rfl⟩ := List.mem_map.mp hentry
    obtain ⟨s, -, rfl⟩ := Option.map_eq_some_iff.mp hsource
    exact notice.sizes offered attempt
  refine lists_tree hoffers ?_
  rw [h.entries, List.map_map, ← hentries, List.map_map]
  rfl

theorem capture_session_exact {offerTtl : Nat}
    (h : Run (CaptureStep desk) (.new offerTtl) notices session) :
    session.registry.registry.current = session.lease.map (·.offer) ∧
    (∀ lease, session.lease = some lease → lease.object.formats.ids.Nodup →
      ∃ notice paths tree, some notice ∈ notices ∧
        notice.clipboard.CopiedFiles desk.formats paths ∧
        notice.files.capture desk.lowercase desk.toLowercase paths = .ok tree ∧
        ∀ allocate, (∀ size, allocate size = .ok ()) → ListsTree lease.object allocate tree) ∧
    (∀ s source, session.registry.sources[s]? = some source →
      (∀ lease, session.lease = some lease → s ∉ lease.offer.sources) →
        (∀ context, source.state ≠ .active context) → ∀ more later,
          Run (CaptureStep desk) session more later → ∃ source' : StableFileSource,
            later.registry.sources[s]? = some source' ∧ ∀ disk now offset length, length ≠ 0 →
              ∃ error, (source'.readAt disk now offset length).2 = .error error) := by
  have horderly := orderly_of_run h
  obtain ⟨labels, hrun⟩ := registry_run h
  refine ⟨horderly.current, fun lease hlease hdistinct => ?_, ?_⟩
  · obtain ⟨notice, hnotice, hleased⟩ := horderly.leased lease hlease
    obtain ⟨paths, tree, hlists⟩ := hleased.lists hdistinct
    exact ⟨notice, paths, tree, hnotice, hlists⟩
  · intro s source hsource hother hstate more later hlater
    have hrevoked := LocalWorld.fenced_of_run hrun s source hsource fun offer hoffer => by
      rw [horderly.current, Option.map_eq_some_iff] at hoffer
      obtain ⟨lease, hlease, rfl⟩ := hoffer
      exact hother lease hlease
    obtain ⟨after, hafter⟩ := registry_run hlater
    exact LocalWorld.refused_later hsource hrevoked hstate hafter

def loopCapture : CaptureNotice where
  leaseCurrent := false
  clipboard := loopClipboard
  files := loopFiles
  guid := .ok (repeatedGuid 1)
  formats := .ok ⟨1, 2, 3, 4⟩
  factory entry _ := ⟨entry.snapshot.size, fun _ _ _ => .error .readFault⟩
  sizes _ _ := rfl
  setClipboard _ := .ok ()
  reads := []

def loopLeased : FileCaptureSession :=
  FileCaptureSession.handleClipboardUpdate loopDesk (.new 9) loopCapture

def loopReplaced : FileCaptureSession := loopLeased.handleClipboardUpdate loopDesk loopCapture

theorem loopReplaced_run :
    Run (CaptureStep loopDesk) (.new 9) [some loopCapture, some loopCapture] loopReplaced :=
  (Run.single (.update _ loopCapture)).snoc (.update _ _)

theorem capture_session_exact_replaced : ∃ lease source later,
    loopReplaced.lease = some lease ∧
    loopReplaced.registry.registry.current = some lease.offer ∧
    (∃ tree, ListsTree lease.object (fun _ => .ok ()) tree) ∧
    Run (CaptureStep loopDesk) loopReplaced [none] later ∧ later.registry.sources[0]? = some source ∧
    ∀ disk now offset length, length ≠ 0 →
      ∃ error, (source.readAt disk now offset length).2 = .error error := by
  have hformats : loopReplaced.lease.map (fun lease => (lease.object.formats, lease.offer.sources)) =
      some (⟨1, 2, 3, 4⟩, [1]) := by decide
  have hunread : loopReplaced.registry.sources[0]?.map (·.state) = some .unstarted := by decide
  obtain ⟨lease, hlease, hids⟩ := Option.map_eq_some_iff.mp hformats
  obtain ⟨hobject, hsources⟩ := Prod.mk.inj hids
  obtain ⟨first, hfirst, hstate⟩ := Option.map_eq_some_iff.mp hunread
  obtain ⟨hcurrent, hleased, hrefused⟩ := capture_session_exact loopReplaced_run
  obtain ⟨-, -, tree, -, -, -, hlists⟩ := hleased lease hlease (by
    rw [hobject]
    decide)
  have hreplaced : ∀ other, loopReplaced.lease = some other → 0 ∉ other.offer.sources := by
    intro other hother
    cases hlease.symm.trans hother
    rw [hsources]
    decide
  have hlater : Run (CaptureStep loopDesk) loopReplaced [none] _ := .single (.elapse _ 1)
  obtain ⟨source, hsource, hrefuses⟩ :=
    hrefused 0 first hfirst hreplaced (by rw [hstate]; exact fun _ => nofun) _ _ hlater
  rw [hlease] at hcurrent
  exact ⟨lease, source, _, hlease, hcurrent, ⟨tree, hlists _ fun _ => rfl⟩, hlater, hsource, hrefuses⟩

end ClipFerry.Runtime
