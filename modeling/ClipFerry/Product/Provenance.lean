import ClipFerry.Capture.CaptureLaw
import ClipFerry.Capture.ClipboardLaw
import ClipFerry.Product.RemoteLease
import ClipFerry.Product.SessionLaw
import ClipFerry.Protocol.OfferSources

namespace ClipFerry.Product

open VirtualTree Protocol Server Local Settings Capture DataObject Client Checked Transition

structure Desk where
  formats : CaptureFormats
  lowercase : Text → Text
  toLowercase : Char → Text
  windowsText : HResult → String

/-! One notice that the clipboard has changed, with all that is found while it is handled. -/

structure Notice where
  observed : UInt32
  leaseCurrent : Bool
  clipboard : Clipboard
  files : FileSystem
  answers : PublishAnswers

def seen : Except CaptureError ClipboardContents → ClipboardCapture
  | .ok (.candidates _ sequence) => .candidates sequence
  | .ok .notFileClipboard | .ok .privateOffer => .other
  | .ok (.rejected reason) => .rejected reason
  | .error error => .failed error

def seenPaths : Except CaptureError ClipboardContents → List (List UInt16)
  | .ok (.candidates paths _) => paths
  | _ => []

def Notice.publishAnswers (desk : Desk) (notice : Notice) : PublishAnswers :=
  { notice.answers with
    capture := notice.files.capture desk.lowercase desk.toLowercase
      (seenPaths (notice.clipboard.captureFiles desk.formats)) }

def ProductSession.noticeClipboard (desk : Desk) (session : ProductSession) (notice : Notice) :
    ProductSession :=
  session.handleClipboardUpdate desk.toLowercase desk.windowsText notice.observed
    notice.leaseCurrent (seen (notice.clipboard.captureFiles desk.formats))
    (notice.publishAnswers desk)

variable {κ : Type}

inductive DeskStep (κ : Type) (desk : Desk) : ProductSession → Option Notice → ProductSession → Prop
  | notice (session : ProductSession) (notice : Notice) :
      DeskStep κ desk session (some notice) (session.noticeClipboard desk notice)
  | event (session : ProductSession) (received : WorkerEvent) (registry : Nat)
      (answers : AcceptAnswers) :
      DeskStep κ desk session none (session.handleEvent registry answers received)
  | command (session : ProductSession) (command : ProductCommand) (answers : CommandAnswers κ) :
      DeskStep κ desk session none (session.handleCommand answers command)
  | timer (session : ProductSession) (outside : Outside κ) (now : Nat) :
      DeskStep κ desk session none (session.refreshProgress outside now)
  | read (session : ProductSession) (disk : Disk) (s : Nat) (offset : UInt64) (length : Nat) :
      DeskStep κ desk session none
        { session with registry := session.registry.readAt disk s offset length }
  | elapse (session : ProductSession) (duration : Nat) :
      DeskStep κ desk session none
        { session with registry := session.registry.apply (.elapse duration) }

structure Notice.Captured (desk : Desk) (notice : Notice) (tree : FileTreeSnapshot) : Prop where
  copied : ∃ paths, notice.clipboard.CopiedFiles desk.formats paths ∧
    notice.files.capture desk.lowercase desk.toLowercase paths = .ok tree

structure Sourced (desk : Desk) (notices : List (Option Notice)) (session : ProductSession) :
    Prop where
  current : ∀ offer, session.registry.registry.current = some offer →
    ∃ notice tree, some notice ∈ notices ∧ notice.Captured desk tree ∧
      offer.entries.map (·.snapshot) = tree.entries
  sources : ∀ source ∈ session.sources, ∃ notice tree, some notice ∈ notices ∧
    notice.Captured desk tree ∧
      source.manifest.entries.map (·.descriptor) = tree.entries.map (·.descriptor)

structure ProductSession.Untouched (session session' : ProductSession) : Prop where
  current : session'.registry.registry.current = session.registry.registry.current
  sources : session'.sources = session.sources

variable {desk : Desk} {notice : Notice} {session session' : ProductSession}
  {notices : List (Option Notice)} {answers : PublishAnswers} {result : Except IoError Unit}

namespace ProductSession.Untouched

theorem refl (session : ProductSession) : session.Untouched session := ⟨rfl, rfl⟩

theorem trans {session'' : ProductSession} (h : session.Untouched session')
    (h' : session'.Untouched session'') : session.Untouched session'' :=
  ⟨h'.current.trans h.current, h'.sources.trans h.sources⟩

theorem recordControl (session : ProductSession) (result : Except IoError Unit) :
    session.Untouched (session.recordControl result) := by
  cases result with
  | ok done => exact refl session
  | error error => exact ⟨rfl, rfl⟩

theorem acceptPending (session : ProductSession) (registry : Nat) (answers : AcceptAnswers) :
    session.Untouched (session.acceptPending registry answers).1 := by
  rw [ProductSession.acceptPending]
  split
  · exact refl session
  · exact ⟨rfl, rfl⟩

theorem handleEvent (session : ProductSession) (registry : Nat) (answers : AcceptAnswers)
    (event : WorkerEvent) : session.Untouched (session.handleEvent registry answers event) := by
  cases event with
  | remoteOffer announcement =>
    have hoffer : session.Untouched (session.receiveOffer announcement) := ⟨rfl, rfl⟩
    have haccept := hoffer.trans
      (acceptPending (session.receiveOffer announcement) registry answers)
    rw [ProductSession.handleEvent]
    split
    · exact ⟨rfl, rfl⟩
    · split
      · split
        · next accepted hresult => rwa [hresult] at haccept
        · next refused error hresult =>
          rw [hresult] at haccept
          exact haccept.trans ⟨rfl, rfl⟩
      · exact hoffer
  | announcementResult result =>
    cases result with
    | ok done => exact ⟨rfl, rfl⟩
    | error error => exact ⟨rfl, rfl⟩

theorem smooth_registry (session : ProductSession) (now : Nat) (reading : ProgressReading) :
    (session.smooth now reading).registry = session.registry := by
  rw [ProductSession.smooth]
  split
  · rfl
  · split
    · rfl
    · rfl

theorem refreshProgress (session : ProductSession) (outside : Outside κ) (now : Nat) :
    session.Untouched (session.refreshProgress outside now) := by
  rw [ProductSession.refreshProgress]
  split
  · exact refl session
  · refine ⟨?_, (session.smooth_same now _).sources⟩
    exact congrArg (·.registry.current) (smooth_registry session now _)

theorem handleCommand (session : ProductSession) (answers : CommandAnswers κ)
    (command : ProductCommand) : session.Untouched (session.handleCommand answers command) := by
  have hperformed : session.Untouched (session.performCommand answers command).1 := by
    cases command with
    | acceptPending => exact acceptPending session _ _
    | pause => exact refl session
    | resume => exact refl session
    | cancel =>
      rw [performCommand, cancelRemote]
      split
      · exact refl session
      · split
        · exact ⟨rfl, rfl⟩
        · exact refl session
  exact (hperformed.trans (recordControl _ _)).trans (refreshProgress _ _ _)

end ProductSession.Untouched

structure Publishes (session session' : ProductSession) (tree : FileTreeSnapshot) : Prop where
  current : ∃ offer, session'.registry.registry.current = some offer ∧
    offer.entries.map (·.snapshot) = tree.entries
  sources : ∀ source ∈ session'.sources, source ∈ session.sources ∨
    source.manifest.entries.map (·.descriptor) = tree.entries.map (·.descriptor)

theorem mem_addSource {source added : LiveSourceOffer}
    (h : source ∈ (session.addSource added).sources) : source ∈ session.sources ∨ source = added := by
  rcases List.mem_append.mp h with hold | hnew
  · split at hold
    · exact .inl (List.mem_of_mem_drop hold)
    · exact .inl hold
  · exact .inr (List.mem_singleton.mp hnew)

theorem startSource_descriptors {toLowercase : Char → Text} {world : LocalWorld}
    {offer : LocalFileOffer} {source : LiveSourceOffer}
    (h : startSource toLowercase world answers offer = .ok source) :
    source.manifest.entries.map (·.descriptor) =
      (offer.entries.map (·.snapshot)).map (·.descriptor) := by
  obtain ⟨offered, hoffered, h⟩ := bind_eq_ok.mp h
  obtain ⟨⟨⟩, -, h⟩ := bind_eq_ok.mp h
  obtain ⟨⟨⟩, -, h⟩ := bind_eq_ok.mp h
  obtain ⟨server, -, h⟩ := bind_eq_ok.mp h
  cases h
  have hgiven := (SecureOfferedFile.newTree_given hoffered).descriptors
  rw [List.map_map] at hgiven
  rw [List.map_map]
  exact hgiven

theorem publishPaths_cases (toLowercase : Char → Text) (windowsText : HResult → String)
    (h : session.publishPaths toLowercase windowsText answers = (session', result)) :
    session.Untouched session' ∨
      ∃ tree, answers.capture = .ok tree ∧ Publishes session session' tree := by
  rw [ProductSession.publishPaths] at h
  split at h
  · cases h
    exact .inl (.refl session)
  · next tree htree =>
    split at h
    · next registry error hpublish =>
      cases h
      refine .inl ⟨?_, rfl⟩
      rw [LocalWorld.publishTree] at hpublish
      split at hpublish
      · cases hpublish
        rfl
      · cases hpublish
    · next registry offer hpublish =>
      obtain ⟨created, hcreate, rfl⟩ := LocalWorld.publishTree_cases hpublish
      obtain ⟨-, hentries, -⟩ := LocalWorld.createTree_cases hcreate
      have hcurrent : ∃ found, (created.replaceCurrent (some offer)).registry.current =
          some found ∧ found.entries.map (·.snapshot) = tree.entries := by
        refine ⟨offer, created.registry_replaceCurrent (some offer), ?_⟩
        rw [hentries, offerEntries_snapshots]
      refine .inr ⟨tree, htree, ?_⟩
      split at h
      · cases h
        exact ⟨hcurrent, fun source hsource => .inl hsource⟩
      · next source hstart =>
        cases h
        refine ⟨hcurrent, fun other hother => ?_⟩
        rcases mem_addSource hother with hold | rfl
        · exact .inl hold
        · exact .inr (by rw [startSource_descriptors hstart, hentries, offerEntries_snapshots])

theorem seen_candidates {contents : Except CaptureError ClipboardContents} {sequence : UInt32}
    (h : seen contents = .candidates sequence) :
    contents = .ok (.candidates (seenPaths contents) sequence) := by
  rcases contents with error | (⟨paths, found⟩ | _ | _ | reason)
  · cases h
  · cases h
    rfl
  · cases h
  · cases h
  · cases h

theorem noticeClipboard_cases (desk : Desk) (session : ProductSession) (notice : Notice) :
    session.Untouched (session.noticeClipboard desk notice) ∨
      ∃ tree, notice.Captured desk tree ∧
        Publishes session (session.noticeClipboard desk notice) tree := by
  rw [ProductSession.noticeClipboard, ProductSession.handleClipboardUpdate]
  dsimp only
  split
  · exact .inl ⟨rfl, rfl⟩
  · cases hseen : seen (notice.clipboard.captureFiles desk.formats) with
    | other => exact .inl ⟨rfl, rfl⟩
    | rejected reason => exact .inl ⟨rfl, rfl⟩
    | failed error => exact .inl ⟨rfl, rfl⟩
    | candidates sequence =>
      obtain ⟨hcopied, -⟩ :=
        Clipboard.captureFiles_candidates_iff.mp (seen_candidates hseen)
      have hcaptured : ∀ tree, (notice.publishAnswers desk).capture = .ok tree →
          notice.Captured desk tree := fun tree htree => ⟨_, hcopied, htree⟩
      dsimp only
      split
      · next published hpublish =>
        rcases publishPaths_cases _ _ hpublish with hsame | ⟨tree, htree, hpublishes⟩
        · exact .inl ⟨hsame.current, hsame.sources⟩
        · exact .inr ⟨tree, hcaptured tree htree, hpublishes.current, hpublishes.sources⟩
      · next refused error hpublish =>
        rcases publishPaths_cases _ _ hpublish with hsame | ⟨tree, htree, hpublishes⟩
        · exact .inl ⟨hsame.current, hsame.sources⟩
        · exact .inr ⟨tree, hcaptured tree htree, hpublishes.current, hpublishes.sources⟩

theorem DeskStep.cases_offer {label : Option Notice} (h : DeskStep κ desk session label session') :
    session.Untouched session' ∨ ∃ notice tree, label = some notice ∧
      notice.Captured desk tree ∧ Publishes session session' tree := by
  cases h with
  | notice notice =>
    rcases noticeClipboard_cases desk session notice with hsame | ⟨tree, hcaptured, hpublishes⟩
    · exact .inl hsame
    · exact .inr ⟨notice, tree, rfl, hcaptured, hpublishes⟩
  | event received registry answers => exact .inl (.handleEvent session registry answers received)
  | command command answers => exact .inl (.handleCommand session answers command)
  | timer outside now => exact .inl (.refreshProgress session outside now)
  | read disk s offset length => exact .inl ⟨rfl, rfl⟩
  | elapse duration => exact .inl ⟨rfl, rfl⟩

theorem Sourced.mono {label : Option Notice} (h : Sourced desk notices session) :
    Sourced desk (notices ++ [label]) session where
  current offer hoffer := by
    obtain ⟨notice, tree, hnotice, hfound⟩ := h.current offer hoffer
    exact ⟨notice, tree, List.mem_append_left _ hnotice, hfound⟩
  sources source hsource := by
    obtain ⟨notice, tree, hnotice, hfound⟩ := h.sources source hsource
    exact ⟨notice, tree, List.mem_append_left _ hnotice, hfound⟩

theorem Sourced.step {label : Option Notice} (h : Sourced desk notices session)
    (hstep : DeskStep κ desk session label session') :
    Sourced desk (notices ++ [label]) session' := by
  have hbefore : Sourced desk (notices ++ [label]) session := h.mono
  rcases hstep.cases_offer with hsame | ⟨notice, tree, rfl, hcaptured, hpublishes⟩
  · constructor
    · intro offer hoffer
      exact hbefore.current offer (hsame.current ▸ hoffer)
    · intro source hsource
      exact hbefore.sources source (hsame.sources ▸ hsource)
  · have hlast : some notice ∈ notices ++ [some notice] :=
      List.mem_append_right _ (List.mem_singleton.mpr rfl)
    constructor
    · intro offer hoffer
      obtain ⟨published, hpublished, hentries⟩ := hpublishes.current
      cases hpublished.symm.trans hoffer
      exact ⟨notice, tree, hlast, hcaptured, hentries⟩
    · intro source hsource
      rcases hpublishes.sources source hsource with hold | hnew
      · exact hbefore.sources source hold
      · exact ⟨notice, tree, hlast, hcaptured, hnew⟩

theorem sourced_of_run {settings : AppSettings} {peerLabel : Text} {now : Nat}
    (h : Run (DeskStep κ desk) (.start settings peerLabel now) notices session) :
    Sourced desk notices session := by
  refine Run.traced ⟨?_, ?_⟩ (fun _ hsourced hstep => Sourced.step hsourced hstep) h
  · intro offer hoffer
    cases hoffer
  · intro source hsource
    cases hsource

theorem offered_was_copied {settings : AppSettings} {peerLabel : Text} {now : Nat}
    (h : Run (DeskStep κ desk) (.start settings peerLabel now) notices session) :
    (∀ offer, session.registry.registry.current = some offer →
      ∃ notice tree, some notice ∈ notices ∧ notice.Captured desk tree ∧
        offer.entries.map (·.snapshot) = tree.entries) ∧
    (∀ source ∈ session.sources, ∃ notice tree, some notice ∈ notices ∧
      notice.Captured desk tree ∧
        source.manifest.entries.map (·.descriptor) = tree.entries.map (·.descriptor)) ∧
    (∀ label session', DeskStep κ desk session label session' →
      (∀ notice tree, label = some notice → ¬notice.Captured desk tree) →
        session.Untouched session') := by
  have hsourced := sourced_of_run h
  refine ⟨hsourced.current, hsourced.sources, fun label session' hstep hnone => ?_⟩
  rcases hstep.cases_offer with hsame | ⟨notice, tree, hlabel, hcaptured, -⟩
  · exact hsame
  · exact absurd hcaptured (hnone notice tree hlabel)

def padded (path : List UInt16) (size : Nat) : List.Vector UInt16 size :=
  ⟨path.take size ++ List.replicate (size - path.length) 0, by
    rw [List.length_append, List.length_take, List.length_replicate]
    omega⟩

def loopDesk : Desk := ⟨⟨5, 4⟩, List.map Char.toLower, fun c => [c.toLower], soloText⟩

def loopClipboard : Clipboard where
  openClipboard attempt := if attempt = 0 then .error .accessDenied else .ok ()
  sequence := 7
  isFormatAvailable format := format = cfHdrop || format = 5
  getData format := if format = 5 then .ok ⟨[1, 0, 0, 0], .ok ()⟩ else .error .formatEtc
  getDrop := .ok ⟨1, fun _ => 4, fun _ size => (4, padded [67, 58, 92, 100] size)⟩
  isAbsolute path := path.take 3 = [67, 58, 92]

def loopNotice : Notice := ⟨7, false, loopClipboard, loopFiles, soloAnswers 1 []⟩

theorem offered_was_copied_loop : ∃ session offer,
    Run (DeskStep Unit loopDesk) (.start (soloSettings false) [] 0) [some loopNotice] session ∧
    session.registry.registry.current = some offer ∧ ∃ tree, loopNotice.Captured loopDesk tree ∧
      offer.entries.map (·.snapshot) = tree.entries := by
  have hrun : Run (DeskStep Unit loopDesk) (.start (soloSettings false) [] 0) [some loopNotice]
      (ProductSession.noticeClipboard loopDesk (.start (soloSettings false) [] 0) loopNotice) :=
    .single (.notice _ _)
  obtain ⟨hcurrent, -, -⟩ := offered_was_copied hrun
  have hsome : (ProductSession.noticeClipboard loopDesk (.start (soloSettings false) [] 0)
      loopNotice).registry.registry.current.isSome = true := by decide
  obtain ⟨offer, hoffer⟩ := Option.isSome_iff_exists.mp hsome
  obtain ⟨notice, tree, hnotice, hcaptured, hentries⟩ := hcurrent offer hoffer
  cases List.mem_singleton.mp hnotice
  exact ⟨_, offer, hrun, hoffer, tree, hcaptured, hentries⟩

/-! The clipboard while a data object is on it: what it gives for a format is what the object
gives. -/

structure Shows (clipboard : Clipboard) (object : VirtualFileDataObject)
    (allocate : Nat → Except HResult Unit) : Prop where
  available : ∀ format, object.queryGetData (some (formatEtc format (-1) tymedHglobal)) = .ok () →
    clipboard.isFormatAvailable format.toUInt32 = true
  getData : ∀ format, ∃ attempt, ∀ bytes,
    object.getData allocate attempt (some (formatEtc format (-1) tymedHglobal)) =
      .ok (.hglobal bytes) → clipboard.getData format.toUInt32 = .ok ⟨bytes, .ok ()⟩

structure Notice.ShowsLease (desk : Desk) (notice : Notice) : Prop where
  lease : ∃ lease object manifest allocate,
    register desk.toLowercase lease = .ok (object, manifest) ∧ object.formats.ids.Nodup ∧
      desk.formats.privateOrigin = object.formats.origin.toUInt32 ∧
        (∀ size, allocate size = .ok ()) ∧ Shows notice.clipboard object allocate

variable {object : VirtualFileDataObject} {allocate : Nat → Except HResult Unit}
  {manifest : OfferManifest} {lease : LeaseAnswers} {clipboard : Clipboard}

theorem getData_origin (hobject : ObjectOf lease.factory manifest object)
    (hdistinct : object.formats.ids.Nodup) (hallocate : ∀ size, allocate size = .ok ())
    (attempt : Nat) :
    object.getData allocate attempt (some (formatEtc object.formats.origin (-1) tymedHglobal)) =
      .ok (.hglobal (originPayload manifest)) := by
  have hlength : 1 ≤ (originPayload manifest).length :=
    List.length_pos_of_ne_nil (originPayload_ne_nil manifest)
  have hmedium : hglobalMedium allocate (originPayload manifest) =
      .ok (.hglobal (originPayload manifest)) := by
    rw [hglobalMedium, hallocate, ok_bind, Nat.max_eq_left hlength, Nat.sub_self,
      List.replicate_zero, List.append_nil]
  obtain ⟨hdescriptor, hcontents, heffect⟩ : object.formats.origin ≠ object.formats.descriptor ∧
      object.formats.origin ≠ object.formats.contents ∧
        object.formats.origin ≠ object.formats.preferredEffect := by
    simp only [ClipboardFormats.ids, List.nodup_cons, List.mem_cons, not_or] at hdistinct
    exact ⟨fun h => hdistinct.1.2.2.1 h.symm, fun h => hdistinct.2.1.2.1 h.symm,
      fun h => hdistinct.2.2.1.1 h.symm⟩
  refine bind_eq_ok.mpr ⟨(), query_formatEtc_global (.inr (.inr rfl)), ?_⟩
  have horigin : (formatEtc object.formats.origin (-1) tymedHglobal).cfFormat =
      object.formats.origin := rfl
  rw [VirtualFileDataObject.mediumFor, horigin, if_neg hdescriptor, if_neg hcontents,
    if_neg heffect, if_pos rfl, hobject.origin, hmedium]

theorem length_originPayload (manifest : OfferManifest) : (originPayload manifest).length = 41 := by
  rw [originPayload, List.length_append, manifest.offerId.bytes.property]
  rfl

theorem originPayload_recognised (manifest : OfferManifest) :
    isPrivateOriginPayload (originPayload manifest) = true :=
  Clipboard.isPrivateOriginPayload_iff.mpr ⟨_, rfl, manifest.offerId.bytes.property⟩

theorem Notice.ShowsLease.marked (h : notice.ShowsLease desk) :
    notice.clipboard.MarkedPrivate desk.formats := by
  obtain ⟨lease, object, manifest, allocate, hregister, hdistinct, hformat, hallocate, hshows⟩ :=
    h.lease
  obtain ⟨-, -, hobject⟩ := register_eq_ok hregister
  obtain ⟨attempt, hgiven⟩ := hshows.getData object.formats.origin
  have hdata := hgiven _ (getData_origin hobject hdistinct hallocate attempt)
  have havailable := hshows.available object.formats.origin
    (query_formatEtc_global (.inr (.inr rfl)))
  rw [← hformat] at hdata havailable
  exact ⟨havailable, _, manifest.offerId.bytes.val, hdata, rfl, rfl, manifest.offerId.bytes.property⟩

theorem noticeClipboard_marked (hopened : notice.clipboard.guardOpen = .ok ())
    (hmarked : notice.clipboard.MarkedPrivate desk.formats) (session : ProductSession) :
    session.noticeClipboard desk notice = { session with
      lastClipboardSequence :=
        (claimClipboardSequence session.lastClipboardSequence notice.observed).1 } := by
  rw [ProductSession.noticeClipboard, ProductSession.handleClipboardUpdate,
    Clipboard.captureFiles_marked hopened hmarked]
  dsimp only [seen]
  split
  · rfl
  · rfl

theorem lease_never_offered {settings : AppSettings} {peerLabel : Text} {now : Nat}
    (h : Run (DeskStep κ desk) (.start settings peerLabel now) notices session)
    (hleases : ∀ notice, some notice ∈ notices → notice.ShowsLease desk) :
    (session.registry.registry.current = none ∧ session.sources = [] ∧
      ∀ notice : Notice, notice.ShowsLease desk → notice.clipboard.guardOpen = .ok () →
        session.noticeClipboard desk notice = { session with
          lastClipboardSequence :=
            (claimClipboardSequence session.lastClipboardSequence notice.observed).1 }) ∧
    ∀ lease object manifest allocate attempt,
      register desk.toLowercase lease = .ok (object, manifest) → object.formats.ids.Nodup →
      (∀ size, allocate size = .ok ()) → ∃ payload,
        object.getData allocate attempt (some (formatEtc object.formats.origin (-1) tymedHglobal)) =
          .ok (.hglobal payload) ∧ payload.length = 41 ∧ isPrivateOriginPayload payload = true := by
  have hsourced := sourced_of_run h
  have hnever : ∀ notice tree, some notice ∈ notices → ¬notice.Captured desk tree := by
    intro notice tree hnotice hcaptured
    obtain ⟨paths, hcopied, -⟩ := hcaptured.copied
    exact hcopied.foreign (hleases notice hnotice).marked
  refine ⟨⟨?_, ?_, fun notice hlease hopened => noticeClipboard_marked hopened hlease.marked
    session⟩, fun lease object manifest allocate attempt hregister hdistinct hallocate => ?_⟩
  · rw [Option.eq_none_iff_forall_ne_some]
    intro offer hoffer
    obtain ⟨notice, tree, hnotice, hcaptured, -⟩ := hsourced.current offer hoffer
    exact hnever notice tree hnotice hcaptured
  · rw [List.eq_nil_iff_forall_not_mem]
    intro source hsource
    obtain ⟨notice, tree, hnotice, hcaptured, -⟩ := hsourced.sources source hsource
    exact hnever notice tree hnotice hcaptured
  · obtain ⟨-, -, hobject⟩ := register_eq_ok hregister
    exact ⟨_, getData_origin hobject hdistinct hallocate attempt, length_originPayload manifest,
      originPayload_recognised manifest⟩

def clipboardOf (object : VirtualFileDataObject) : Clipboard where
  openClipboard _ := .ok ()
  sequence := 9
  isFormatAvailable format :=
    (object.queryGetData (some (formatEtc format.toUInt16 (-1) tymedHglobal))).isOk
  getData format :=
    match object.getData (fun _ => .ok ()) 0 (some (formatEtc format.toUInt16 (-1) tymedHglobal)) with
    | .ok (.hglobal bytes) => .ok ⟨bytes, .ok ()⟩
    | _ => .error .formatEtc
  getDrop := .error .formatEtc
  isAbsolute _ := false

theorem clipboardOf_shows (object : VirtualFileDataObject) :
    Shows (clipboardOf object) object fun _ => .ok () where
  available format h := by
    have hformat : format.toUInt32.toUInt16 = format := UInt16.toUInt16_toUInt32 format
    rw [clipboardOf]
    dsimp only
    rw [hformat, h]
    rfl
  getData format := by
    have hformat : format.toUInt32.toUInt16 = format := UInt16.toUInt16_toUInt32 format
    refine ⟨0, fun bytes h => ?_⟩
    rw [clipboardOf]
    dsimp only
    rw [hformat, h]

theorem soloListing_wellFormed :
    WellFormedTree (fun c => [c.toLower]) (soloListing.entries.map (·.descriptor)) :=
  (validate_eq_ok_iff _).mp (by decide)

def leaseObject : VirtualFileDataObject :=
  ⟨⟨1, 2, 3, 4⟩, remoteEntries (retriedLease soloListing).factory soloListing,
    originPayload soloListing⟩

theorem leaseObject_registered :
    register loopDesk.toLowercase (retriedLease soloListing) = .ok (leaseObject, soloListing) :=
  register_ok rfl soloListing_wellFormed rfl rfl

def leaseNotice : Notice where
  observed := 9
  leaseCurrent := false
  clipboard := clipboardOf leaseObject
  files := loopFiles
  answers := soloAnswers 2 []

theorem leaseNotice_shows : leaseNotice.ShowsLease loopDesk :=
  ⟨_, _, _, _, leaseObject_registered, by decide, rfl, fun _ => rfl, clipboardOf_shows _⟩

theorem lease_never_offered_solo : ∃ session payload,
    Run (DeskStep Unit loopDesk) (.start (soloSettings false) [] 0)
      [some leaseNotice, some leaseNotice] session ∧ session.sources = [] ∧
    register loopDesk.toLowercase (retriedLease soloListing) = .ok (leaseObject, soloListing) ∧
    leaseObject.getData (fun _ => .ok ()) 0 (some (formatEtc 4 (-1) tymedHglobal)) =
      .ok (.hglobal payload) ∧ payload.length = 41 := by
  have hrun : ∃ session, Run (DeskStep Unit loopDesk) (.start (soloSettings false) [] 0)
      [some leaseNotice, some leaseNotice] session :=
    ⟨_, .snoc (.single (.notice _ _)) (.notice _ _)⟩
  obtain ⟨session, hrun⟩ := hrun
  have hleases : ∀ notice, some notice ∈ [some leaseNotice, some leaseNotice] →
      notice.ShowsLease loopDesk := by
    intro notice hnotice
    rcases List.mem_pair.mp hnotice with h | h
    · cases h
      exact leaseNotice_shows
    · cases h
      exact leaseNotice_shows
  obtain ⟨⟨-, hsources, -⟩, hgiven⟩ := lease_never_offered hrun hleases
  obtain ⟨payload, hpayload, hlength, -⟩ :=
    hgiven _ _ _ (fun _ => .ok ()) 0 leaseObject_registered (by decide) (fun _ => rfl)
  exact ⟨session, payload, hrun, hsources, leaseObject_registered, hpayload, hlength⟩

end ClipFerry.Product
