import ClipFerry.Local.Offer

namespace ClipFerry.Local

open VirtualTree Transition Checked

def StableFileSource.Reached (source : StableFileSource) : Prop :=
  ∃ snapshot expiresAt, (StableFileSource.new snapshot expiresAt).Evolves source

theorem StableFileSource.Reached.openOf {source : StableFileSource} (h : source.Reached)
    {context : StableFileContext} (hactive : source.state = .active context) :
    context.OpenOf source.snapshot := by
  obtain ⟨snapshot, expiresAt, hevolves⟩ := h
  rcases hevolves.activated context hactive with hnew | ⟨-, hopen⟩
  · cases hnew
  · exact hevolves.snapshot ▸ hopen

theorem StableFileSource.Reached.evolves {source source' : StableFileSource} (h : source.Reached)
    (hevolves : source.Evolves source') : source'.Reached := by
  obtain ⟨snapshot, expiresAt, hreached⟩ := h
  exact ⟨snapshot, expiresAt, hreached.trans hevolves⟩

theorem reached_of_treeSources {expiresAt : Nat} {tree : List FileSnapshot}
    {source : StableFileSource} (h : source ∈ treeSources expiresAt tree) : source.Reached := by
  obtain ⟨snapshot, -, rfl⟩ := List.mem_map.mp h
  exact ⟨snapshot, expiresAt, .refl _⟩

theorem offerEntries_source (expiresAt : Nat) {files s : Nat} {tree : List FileSnapshot}
    {entry : LocalOfferEntry} (hentry : entry ∈ offerEntries files tree)
    (hs : entry.source = some s) :
    files ≤ s ∧ (treeSources expiresAt tree)[s - files]? = some (.new entry.snapshot expiresAt) := by
  induction tree generalizing files with
  | nil => cases hentry
  | cons snapshot rest ih =>
    cases hdir : snapshot.isDirectory with
    | true =>
      have hsources : treeSources expiresAt (snapshot :: rest) = treeSources expiresAt rest := by
        simp [treeSources, hdir]
      rw [offerEntries, if_pos hdir] at hentry
      rw [hsources]
      rcases List.mem_cons.mp hentry with rfl | hrest
      · cases hs
      · exact ih hrest
    | false =>
      have hsources : treeSources expiresAt (snapshot :: rest) =
          .new snapshot expiresAt :: treeSources expiresAt rest := by
        simp [treeSources, hdir]
      rw [offerEntries, if_neg (by simp [hdir])] at hentry
      rw [hsources]
      rcases List.mem_cons.mp hentry with rfl | hrest
      · cases hs
        exact ⟨Nat.le_refl _, by simp⟩
      · obtain ⟨hle, hget⟩ := ih hrest
        refine ⟨by omega, ?_⟩
        rw [show s - files = s - (files + 1) + 1 by omega, List.getElem?_cons_succ]
        exact hget

def LocalWorld.Backs (world : LocalWorld) (offer : LocalFileOffer) : Prop :=
  ∀ entry ∈ offer.entries, ∀ s, entry.source = some s → ∃ source : StableFileSource,
    world.sources[s]? = some source ∧ source.snapshot = entry.snapshot ∧
      source.expiresAt = offer.expiresAt

structure LocalWorld.Sound (world : LocalWorld) : Prop where
  reached : ∀ source ∈ world.sources, source.Reached
  current : ∀ offer, world.registry.current = some offer → world.Backs offer

namespace LocalWorld

variable {world world' : LocalWorld} {offer next : LocalFileOffer}
  {guid : Except HResult (List.Vector UInt8 16)} {tree : FileTreeSnapshot} {ttl : Nat}

theorem Backs.evolves (h : world.Backs offer) (hevolves : world.Evolves world') :
    world'.Backs offer := by
  intro entry hentry s hs
  obtain ⟨source, hsource, hsnapshot, hexpires⟩ := h entry hentry s hs
  obtain ⟨source', hsource', hchange⟩ := hevolves.sources s source hsource
  exact ⟨source', hsource', hchange.snapshot.trans hsnapshot, hchange.expiresAt.trans hexpires⟩

theorem reached_revoke (h : ∀ source ∈ world.sources, source.Reached) (offer : LocalFileOffer) :
    ∀ source ∈ (world.revoke offer).sources, source.Reached := by
  intro source' hsource'
  obtain ⟨s, hs, rfl⟩ := List.mem_mapIdx.mp hsource'
  split
  · exact (h _ (List.getElem_mem hs)).evolves (StableFileSource.revoke_evolves _)
  · exact h _ (List.getElem_mem hs)

theorem reached_replaceCurrent (h : ∀ source ∈ world.sources, source.Reached)
    (offer : Option LocalFileOffer) :
    ∀ source ∈ (world.replaceCurrent offer).sources, source.Reached := by
  unfold replaceCurrent
  split
  · exact h
  · exact @reached_revoke { world with registry := ⟨offer⟩ } h _

theorem reached_createTree (h : ∀ source ∈ world.sources, source.Reached)
    (hcreate : world.createTree guid tree ttl = .ok (offer, world')) :
    ∀ source ∈ world'.sources, source.Reached := by
  obtain ⟨-, -, rfl⟩ := createTree_cases hcreate
  intro source hsource
  rcases List.mem_append.mp hsource with hold | hnew
  · exact h source hold
  · exact reached_of_treeSources hnew

theorem reached_apply (h : ∀ source ∈ world.sources, source.Reached) (label : LocalLabel) :
    ∀ source ∈ (world.apply label).sources, source.Reached := by
  cases label with
  | publishTree guid tree ttl =>
    simp only [LocalWorld.apply, publishTree]
    split
    · exact h
    · rename_i offer created hcreate
      exact reached_replaceCurrent (reached_createTree h hcreate) _
  | revokeCurrent => exact reached_replaceCurrent h none
  | readAt disk s offset length =>
    intro source' hsource'
    obtain ⟨j, hj⟩ := List.mem_iff_getElem?.mp hsource'
    rw [LocalWorld.apply, LocalWorld.readAt, List.getElem?_modify] at hj
    obtain ⟨source, hsource, rfl⟩ := Option.map_eq_some_iff.mp hj
    have hreached := h source (List.mem_of_getElem? hsource)
    split
    · exact hreached.evolves (source.readAt_evolves disk world.now offset length)
    · exact hreached
  | elapse duration => exact h

theorem registry_replaceCurrent (world : LocalWorld) (offer : Option LocalFileOffer) :
    (world.replaceCurrent offer).registry.current = offer := by
  unfold replaceCurrent
  split <;> rfl

theorem createTree_backs (h : world.createTree guid tree ttl = .ok (offer, world')) :
    world'.Backs offer := by
  obtain ⟨-, hentries, rfl⟩ := createTree_cases h
  intro entry hentry s hs
  rw [hentries] at hentry
  obtain ⟨hle, hget⟩ := offerEntries_source offer.expiresAt hentry hs
  refine ⟨.new entry.snapshot offer.expiresAt, ?_, rfl, rfl⟩
  rw [List.getElem?_append_right hle]
  exact hget

theorem Sound.empty : Sound empty := ⟨fun _ h => (List.not_mem_nil h).elim, fun _ h => nomatch h⟩

theorem Sound.apply (h : world.Sound) (label : LocalLabel) : (world.apply label).Sound := by
  refine ⟨reached_apply h.reached label, ?_⟩
  have hkept : (world.apply label).registry = world.registry → ∀ offer,
      (world.apply label).registry.current = some offer → (world.apply label).Backs offer := by
    intro hregistry offer hoffer
    rw [hregistry] at hoffer
    exact (h.current offer hoffer).evolves (world.apply_evolves label)
  cases label with
  | publishTree guid tree ttl =>
    revert hkept
    simp only [LocalWorld.apply, publishTree]
    split
    · intro hkept
      exact hkept rfl
    · rename_i offer created hcreate
      intro _ current hcurrent
      rw [registry_replaceCurrent] at hcurrent
      cases hcurrent
      exact (createTree_backs hcreate).evolves (created.replaceCurrent_evolves _)
  | revokeCurrent =>
    intro offer hoffer
    rw [LocalWorld.apply, revokeCurrent, registry_replaceCurrent] at hoffer
    cases hoffer
  | readAt disk s offset length => exact hkept rfl
  | elapse duration => exact hkept rfl

theorem sound_of_run {labels : List LocalLabel} (h : Run LocalStep empty labels world) :
    world.Sound := by
  refine h.invariant ?_ Sound.empty
  rintro s label t hs rfl
  exact hs.apply label

end LocalWorld

def LocalWorld.Started (world : LocalWorld) (s : Nat) : Prop :=
  ∃ source context, world.sources[s]? = some source ∧
    source.state = StableFileState.active context

def LocalWorld.Reads (world : LocalWorld) (disk : Disk) (content : List UInt8) (s : Nat) : Prop :=
  ∃ source : StableFileSource, world.sources[s]? = some source ∧ ∀ (offset : UInt64) length,
    length ≠ 0 → (source.readAt disk world.now offset length).2 =
      .ok ((content.drop offset.toNat).take length)

def LocalWorld.Finishes (world : LocalWorld) (offer : LocalFileOffer) : Prop :=
  world.now < offer.expiresAt → ∀ entry ∈ offer.entries, ∀ s, entry.source = some s →
    ∀ disk content, Disk.Intact disk entry.snapshot content → world.Reads disk content s

def FileSnapshot.information (snapshot : FileSnapshot) : FileInformation where
  dwFileAttributes := 0
  ftCreationTime := snapshot.creationTime
  ftLastAccessTime := snapshot.lastAccessTime
  ftLastWriteTime := snapshot.lastWriteTime
  dwVolumeSerialNumber := snapshot.identity.volumeSerial
  nFileSizeHigh := (snapshot.size >>> 32).toUInt32
  nFileSizeLow := snapshot.size.toUInt32
  nFileIndexHigh := (snapshot.identity.fileIndex >>> 32).toUInt32
  nFileIndexLow := snapshot.identity.fileIndex.toUInt32

def diskOf (files : List (FileSnapshot × List UInt8)) : Disk where
  openStableHandle path :=
    if (files.find? (·.1.path = path)).isSome then .ok 0 else .error (.other 0x80070002)
  answers _ file := match files.find? (·.1.path = file.path) with
    | some (snapshot, content) => ⟨.ok snapshot.information, fileTypeDisk,
        fun offset length => .ok ((content.drop offset).take length)⟩
    | none => ⟨.error (.other 0x80070006), 0, fun _ _ => .error (.other 0x80070006)⟩

theorem matches_information (snapshot : FileSnapshot) :
    snapshot.matchesInformation snapshot.information = true := by
  simp [FileSnapshot.matchesInformation, FileSnapshot.information, fileSize, fileIdentity,
    joinWords_split]

theorem diskOf_intact {files : List (FileSnapshot × List UInt8)} {snapshot : FileSnapshot}
    {content : List UInt8} (hlength : content.length = snapshot.size.toNat)
    (hfile : files.find? (·.1.path = snapshot.path) = some (snapshot, content)) :
    (diskOf files).Intact snapshot content := by
  have hanswers : ∀ moment file, file.path = snapshot.path →
      (diskOf files).answers moment file = ⟨.ok snapshot.information, fileTypeDisk,
        fun offset length => .ok ((content.drop offset).take length)⟩ := by
    intro moment file hpath
    simp only [diskOf, hpath, hfile]
  refine ⟨hlength, ⟨0, ?_⟩, ?_, ?_, ?_⟩
  · simp only [diskOf, hfile, Option.isSome_some, if_true]
  · intro moment file hpath
    rw [hanswers moment file hpath]
    refine ⟨_, rfl, matches_information snapshot, ?_⟩
    simp [FileSnapshot.information, rejectAttributes, rejectAttributesForCapture]
  · intro moment file hpath
    rw [hanswers moment file hpath]
  · intro moment file offset length hpath
    rw [hanswers moment file hpath]

namespace LocalWorld

variable {world world' : LocalWorld} {offer next : LocalFileOffer}
  {guid : Except HResult (List.Vector UInt8 16)} {tree : FileTreeSnapshot} {ttl s : Nat}

theorem Started.evolves (h : world.Started s) (hevolves : world.Evolves world') :
    world'.Started s := by
  obtain ⟨source, context, hsource, hstate⟩ := h
  obtain ⟨source', hsource', hchange⟩ := hevolves.sources s source hsource
  refine ⟨source', context, hsource', ?_⟩
  rcases hchange.decided with hunstarted | hkept
  · rw [hstate] at hunstarted
    cases hunstarted
  · exact hkept.trans hstate

theorem Started.reads (h : world.Started s) (hsound : ∀ source ∈ world.sources, source.Reached)
    {entry : LocalOfferEntry} (hbacks : ∃ source : StableFileSource,
      world.sources[s]? = some source ∧ source.snapshot = entry.snapshot)
    {disk : Disk} {content : List UInt8} (hintact : disk.Intact entry.snapshot content) :
    world.Reads disk content s := by
  obtain ⟨source, context, hsource, hstate⟩ := h
  obtain ⟨source', hsource', hsnapshot⟩ := hbacks
  obtain rfl : source = source' := Option.some.inj (hsource.symm.trans hsource')
  have hopen := (hsound source (List.mem_of_getElem? hsource)).openOf hstate
  rw [← hsnapshot] at hintact
  exact ⟨source, hsource, fun offset length hlength =>
    StableFileSource.readAt_intact hstate hopen hintact offset hlength⟩

theorem refused_of_revoked {source : StableFileSource} (hrevoked : source.revoked = true)
    (hstate : ∀ context, source.state ≠ .active context) (disk : Disk) (now : Nat)
    (offset : UInt64) {length : Nat} (hlength : length ≠ 0) :
    ∃ error, (source.readAt disk now offset length).2 = .error error := by
  cases hcase : source.state with
  | active context => exact absurd hcase (hstate context)
  | failed code =>
    exact ⟨code, congrArg Prod.snd (StableFileSource.readAt_error hlength
      (StableFileSource.context_failed hcase))⟩
  | unstarted =>
    exact ⟨_, congrArg Prod.snd (StableFileSource.readAt_error hlength
      (StableFileSource.context_unavailable hcase (.inl hrevoked)))⟩

theorem replaced_source {previous : LocalFileOffer} {current : Option LocalFileOffer}
    (hprevious : world.registry.current = some previous) (hs : s ∈ previous.sources)
    {source : StableFileSource} (hsource : world.sources[s]? = some source) :
    (world.replaceCurrent current).sources[s]? = some source.revoke := by
  have hreplace : world.replaceCurrent current =
      ({ world with registry := ⟨current⟩ } : LocalWorld).revoke previous := by
    simp only [replaceCurrent, hprevious]
  rw [hreplace, revoke, List.getElem?_mapIdx, hsource, Option.map_some, if_pos hs]

theorem published_source {previous : LocalFileOffer}
    (hprevious : world.registry.current = some previous) (hs : s ∈ previous.sources)
    {source : StableFileSource} (hsource : world.sources[s]? = some source)
    (hpublish : world.publishTree guid tree ttl = (world', .ok next)) :
    world'.sources[s]? = some source.revoke ∧ world'.now = world.now := by
  obtain ⟨created, hcreate, rfl⟩ := publishTree_cases hpublish
  obtain ⟨-, -, rfl⟩ := createTree_cases hcreate
  have hcreated : (world.sources ++ treeSources next.expiresAt tree.entries)[s]? = some source := by
    rw [List.getElem?_append_left (List.getElem?_eq_some_iff.mp hsource).1]
    exact hsource
  refine ⟨@replaced_source { world with
    sources := world.sources ++ treeSources next.expiresAt tree.entries } s previous _ hprevious hs
    source hcreated, ?_⟩
  unfold replaceCurrent
  split <;> rfl

end LocalWorld

theorem started_offer_finishes_iff {labels : List LocalLabel} {world replaced : LocalWorld}
    {offer next : LocalFileOffer} {guid : Except HResult (List.Vector UInt8 16)}
    {tree : FileTreeSnapshot} {ttl : Nat} (hrun : Run LocalStep .empty labels world)
    (hcurrent : world.registry.current = some offer) (hlive : world.now < offer.expiresAt)
    (hpublish : world.publishTree guid tree ttl = (replaced, .ok next)) :
    ((∃ s ∈ offer.sources, world.Started s) →
      ∀ labels later, Run LocalStep replaced labels later → later.Finishes offer) ↔
    (∀ s ∈ offer.sources, world.Started s) ∨ ∀ s ∈ offer.sources, ¬world.Started s := by
  have hsound := LocalWorld.sound_of_run hrun
  have hpublished : replaced = world.apply (.publishTree guid tree ttl) := by
    rw [LocalWorld.apply, hpublish]
  constructor
  · intro hfinishes
    by_cases hstarted : ∃ s ∈ offer.sources, world.Started s
    · refine .inl fun s hs => Classical.byContradiction fun hnot => ?_
      obtain ⟨entry, hentry, hentrySource⟩ := mem_sources.mp hs
      obtain ⟨source, hsource, hsnapshot, -⟩ := hsound.current offer hcurrent entry hentry s
        hentrySource
      obtain ⟨hrevoked, hnow⟩ := LocalWorld.published_source hcurrent hs hsource hpublish
      have hintact : (diskOf [(entry.snapshot, List.replicate entry.snapshot.size.toNat 0)]).Intact
          entry.snapshot (List.replicate entry.snapshot.size.toNat 0) :=
        diskOf_intact (List.length_replicate ..) (by simp)
      obtain ⟨source', hsource', hreads⟩ := hfinishes hstarted [] replaced .nil (by omega) entry
        hentry s hentrySource _ _ hintact
      obtain rfl := Option.some.inj (hrevoked.symm.trans hsource')
      obtain ⟨error, herror⟩ := @LocalWorld.refused_of_revoked source.revoke rfl
        (fun context hactive => hnot ⟨source, context, hsource, hactive⟩) _ replaced.now 0 1
        Nat.one_ne_zero
      have hread := hreads 0 1 Nat.one_ne_zero
      rw [herror] at hread
      cases hread
    · exact .inr fun s hs h => hstarted ⟨s, hs, h⟩
  · rintro (hall | hnone) ⟨s, hs, hstarted⟩ labels later hlater
    · intro _ entry hentry j hj disk content hintact
      have hreplaced : world.Evolves replaced := hpublished ▸ world.apply_evolves _
      have hevolves := hreplaced.trans (LocalWorld.run_evolves hlater)
      obtain ⟨source, hsource, hsnapshot, -⟩ :=
        (hsound.current offer hcurrent).evolves hevolves entry hentry j hj
      have hlaterSound := LocalWorld.sound_of_run
        ((hrun.snoc hpublished).append hlater)
      have hmem : j ∈ offer.sources := mem_sources.mpr ⟨entry, hentry, hj⟩
      exact ((hall j hmem).evolves hevolves).reads hlaterSound.reached ⟨source, hsource, hsnapshot⟩
        hintact
    · exact absurd hstarted (hnone s hs)

def repeatedGuid (value : UInt8) : List.Vector UInt8 16 := ⟨List.replicate 16 value, rfl⟩

def soloFile (name : Char) (fileIndex : UInt64) : FileSnapshot where
  path := ['C', ':', '\\', name]
  fileName := [name]
  size := 2
  attributes := fileAttributeArchive
  creationTime := ⟨0, 0⟩
  lastAccessTime := ⟨0, 0⟩
  lastWriteTime := ⟨0, 0⟩
  identity := ⟨1, fileIndex⟩

def soloDisk : Disk := diskOf [(soloFile 'a' 1, [1, 2]), (soloFile 'b' 2, [3, 4])]

def soloOffered : LocalWorld :=
  LocalWorld.empty.apply (.publishTree (.ok (repeatedGuid 1)) ⟨[soloFile 'a' 1, soloFile 'b' 2]⟩ 9)

def soloStarted : LocalWorld := soloOffered.apply (.readAt soloDisk 0 0 1)

theorem soloStarted_run : Run LocalStep .empty
    [.publishTree (.ok (repeatedGuid 1)) ⟨[soloFile 'a' 1, soloFile 'b' 2]⟩ 9,
      .readAt soloDisk 0 0 1] soloStarted :=
  ((@Run.nil _ _ LocalStep _).snoc rfl).snoc rfl

def soloFinishing : LocalWorld := soloStarted.apply (.readAt soloDisk 1 0 1)

theorem started_offer_finishes_iff_solo : ∃ offer, soloFinishing.registry.current = some offer ∧
    ∀ labels later, Run LocalStep (soloFinishing.publishTree (.ok (repeatedGuid 2))
      ⟨[soloFile 'c' 3]⟩ 9).1 labels later → later.Finishes offer := by
  refine ⟨_, rfl, ?_⟩
  have hfinishes := @started_offer_finishes_iff _ soloFinishing _ _ _ (.ok (repeatedGuid 2))
    ⟨[soloFile 'c' 3]⟩ 9 (soloStarted_run.snoc rfl) rfl (by decide) rfl
  refine hfinishes.mpr (.inl ?_) ⟨0, by decide, _, _, rfl, rfl⟩
  intro s hs
  have hcases : s ∈ [0, 1] := hs
  rcases List.mem_pair.mp hcases with rfl | rfl
  · exact ⟨_, _, rfl, rfl⟩
  · exact ⟨_, _, rfl, rfl⟩

theorem started_offer_refused : ∃ offer next replaced,
    soloStarted.registry.current = some offer ∧ soloStarted.now < offer.expiresAt ∧
    soloStarted.publishTree (.ok (repeatedGuid 2)) ⟨[soloFile 'c' 3]⟩ 9 = (replaced, .ok next) ∧
    (∃ s ∈ offer.sources, soloStarted.Started s) ∧ ¬replaced.Finishes offer := by
  refine ⟨_, _, _, rfl, by decide, rfl, ⟨0, by decide, _, _, rfl, rfl⟩, fun h => ?_⟩
  have hintact : soloDisk.Intact (soloFile 'b' 2) [3, 4] := diskOf_intact rfl rfl
  obtain ⟨source, hsource, hreads⟩ := h (by decide) ⟨soloFile 'b' 2, some 1⟩ (by decide) 1 rfl _ _
    hintact
  obtain rfl := Option.some.inj hsource
  cases hreads 0 1 (by decide)

end ClipFerry.Local
