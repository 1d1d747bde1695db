import ClipFerry.Capture.TreeWalk

namespace ClipFerry.Capture

open VirtualTree Local Product Protocol Checked LinkWalk WordSum

variable {files : FileSystem} {lowercase : Text → Text} {toLowercase : Char → Text}
  {entries roots : List FileSnapshot} {snapshot : FileSnapshot}

structure Walked (files : FileSystem) (lowercase : Text → Text) (toLowercase : Char → Text)
    (roots entries : List FileSnapshot) : Prop where
  names : ∀ root ∈ roots, '\\' ∉ root.fileName
  visits : (treeGraph files lowercase).Visits [] roots entries
  tree : WellFormedTree toLowercase (entries.map (·.descriptor))

namespace Walked

variable (h : Walked files lowercase toLowercase roots entries)

include h

theorem nodup_keys : (entries.map fun entry => key toLowercase entry.descriptor).Nodup := by
  have hdistinct := h.tree.distinct
  rw [List.map_map] at hdistinct
  exact hdistinct

theorem nodup : entries.Nodup := h.nodup_keys.of_map _

theorem eq_of_fileName {first second : FileSnapshot} (hfirst : first ∈ entries)
    (hsecond : second ∈ entries) (hname : first.fileName = second.fileName) : first = second :=
  List.inj_on_of_nodup_map h.nodup_keys hfirst hsecond
    (congrArg (caseFoldPath toLowercase) hname)

theorem single : ∀ parent ∈ entries, ∀ other ∈ entries, ∀ child, DirectlyIn parent child →
    DirectlyIn other child → parent = other :=
  fun _ hparent _ hother _ hchild hchild' =>
    h.eq_of_fileName hparent hother (hchild.parent_eq hchild')

theorem parent_first {front back : List FileSnapshot} (hsplit : entries = front ++ snapshot :: back)
    (hdeep : '\\' ∈ snapshot.fileName) : ∃ parent ∈ front, DirectlyIn parent snapshot := by
  rcases h.visits.parent_first (fun _ _ hlisting _ => listing_directlyIn hlisting) hsplit with
    hroot | hparent
  · exact absurd hdeep (h.names snapshot hroot)
  · exact hparent

theorem not_above_root {root top : FileSnapshot} (hroot : root ∈ roots) :
    ¬LinkGraph.Above DirectlyIn entries top root := by
  intro habove
  obtain ⟨parent, -, -, name, -, hname⟩ := Relation.TransGen.tail'_iff.mp habove
  exact h.names root hroot (hname ▸ separator_mem _ _)

theorem above_of_beneath {top bottom : FileSnapshot} (htop : top ∈ entries)
    (hbottom : bottom ∈ entries) (hbeneath : Beneath top bottom) :
    LinkGraph.Above DirectlyIn entries top bottom := by
  obtain ⟨rest, hrest⟩ := hbeneath
  induction hlength : rest.length using Nat.strongRecOn generalizing rest bottom with
  | ind length ih =>
    obtain ⟨front, back, hsplit⟩ := List.append_of_mem hbottom
    obtain ⟨parent, hparent, hdirect⟩ := h.parent_first hsplit (hrest ▸ separator_mem _ _)
    have hparent : parent ∈ entries := hsplit ▸ List.mem_append_left _ hparent
    obtain ⟨name, hname, hchild⟩ := hdirect
    rcases childVirtualPath_cases hname (hrest.symm.trans hchild) with
      ⟨hsame, -⟩ | ⟨rest', hdeeper, rfl⟩
    · obtain rfl := h.eq_of_fileName htop hparent hsame
      exact .single ⟨htop, name, hname, hchild⟩
    · have hshorter : rest'.length < length := by
        rw [← hlength, childVirtualPath, List.length_append, List.length_cons]
        omega
      exact .tail (ih _ hshorter hparent rest' hdeeper rfl) ⟨hparent, name, hname, hchild⟩

theorem entered {top inner bottom : FileSnapshot} (htop : top ∈ entries) (hinner : inner ∈ entries)
    (hbottom : bottom ∈ entries) (hdown : Beneath inner bottom) :
    inner.isDirectory = true ∧ (Beneath top inner → top.identity ≠ inner.identity) := by
  obtain ⟨id, hid, -, htops⟩ := h.visits.entered
    (fun _ _ hlisting _ => listing_directlyIn hlisting) h.single (List.Subset.refl _) h.nodup
    (fun root hroot _ _ => h.not_above_root hroot) hinner hbottom
    (h.above_of_beneath hinner hbottom hdown)
  obtain ⟨hdirectory, hinnerId⟩ := Option.ite_none_right_eq_some.mp hid
  refine ⟨hdirectory, fun hup => ?_⟩
  obtain ⟨other, hother, hdiffers⟩ := htops top htop (h.above_of_beneath htop hinner hup)
  obtain ⟨-, htopId⟩ := Option.ite_none_right_eq_some.mp hother
  rw [Option.some.inj htopId, Option.some.inj hinnerId]
  exact hdiffers

end Walked

variable {σ : Type} {len : σ → UInt64} {random : Nat → Except IoError ProtocolId}

theorem pushEntries_ok (hrandom : ∀ i, ∃ id, random i = .ok id)
    {items : List (VirtualFileDescriptor × Option σ)}
    (hmatch : ∀ item ∈ items, SecureOfferedFile.sourceMismatch len item = false) (i : Nat)
    (builder : SecureOfferedFile.Builder σ) :
    ∃ builder', SecureOfferedFile.pushEntries len random i builder items = .ok builder' := by
  induction items generalizing i builder with
  | nil => exact ⟨builder, rfl⟩
  | cons item items ih =>
    obtain ⟨hitem, hitems⟩ := List.forall_mem_cons.mp hmatch
    obtain ⟨id, hid⟩ := hrandom i
    have hpush : ∃ builder', SecureOfferedFile.pushEntry len (random i) builder item =
        .ok builder' := by
      rw [SecureOfferedFile.pushEntry, if_neg (by simp [hitem]), hid]
      exact ⟨_, rfl⟩
    obtain ⟨pushed, hpush⟩ := hpush
    obtain ⟨builder', hrest⟩ := ih hitems (i + 1) pushed
    exact ⟨builder', bind_eq_ok.mpr ⟨pushed, hpush, hrest⟩⟩

theorem newTree_ok {items : List (VirtualFileDescriptor × Option σ)} {now ttl : Nat}
    (hrandom : ∀ i, ∃ id, random i = .ok id)
    (hmatch : ∀ item ∈ items, SecureOfferedFile.sourceMismatch len item = false)
    (hvalid : validateVirtualDescriptorTree toLowercase (items.map Prod.fst) = .ok ())
    (httl : 0 < ttl) (hclock : now + ttl < instantLimit) :
    ∃ offered, SecureOfferedFile.newTree toLowercase len random now items ttl = .ok offered ∧
      offered.storedManifest.entries.map (·.descriptor) = items.map Prod.fst := by
  have hwell := (validate_eq_ok_iff _).mp hvalid
  have hnonempty := hwell.nonempty
  have hitems := hwell.items
  rw [List.length_map] at hnonempty hitems
  obtain ⟨offerId, hofferId⟩ := hrandom 0
  obtain ⟨builder, hbuilder⟩ := pushEntries_ok hrandom hmatch 1 ⟨[], ∅⟩
  have hsize : ¬(ttl = 0 ∨ items = [] ∨ maxVirtualItems < items.length) := by
    rintro (hzero | rfl | hmany)
    · omega
    · cases hnonempty
    · omega
  have hexpires : checkedAddInstant now ttl = some (now + ttl) := if_pos hclock
  refine ⟨⟨⟨offerId, builder.entries, ttl⟩, builder.sources, now + ttl⟩, ?_, ?_⟩
  · rw [SecureOfferedFile.newTree, if_neg hsize, hvalid]
    simp only [hofferId, hbuilder, ok_bind, hexpires]
  · exact SecureOfferedFile.pushEntries_descriptors hbuilder

theorem offerEntries_directory {first : Nat} {tree : List FileSnapshot} {entry : LocalOfferEntry}
    (h : entry ∈ offerEntries first tree) :
    entry.snapshot.isDirectory = entry.source.isNone := by
  induction tree generalizing first with
  | nil => cases h
  | cons snapshot tree ih =>
    rw [offerEntries] at h
    split at h
    · rename_i hdirectory
      rcases List.mem_cons.mp h with rfl | h
      · exact hdirectory
      · exact ih h
    · rename_i hfile
      rcases List.mem_cons.mp h with rfl | h
      · simpa using hfile
      · exact ih h

theorem offerEntries_snapshots (first : Nat) (tree : List FileSnapshot) :
    (offerEntries first tree).map (·.snapshot) = tree := by
  induction tree generalizing first with
  | nil => rfl
  | cons snapshot tree ih =>
    rw [offerEntries]
    split
    · rw [List.map_cons, ih]
    · rw [List.map_cons, ih]

theorem fromLocalOffer_ok {world world' : LocalWorld} {guid : Except HResult (List.Vector UInt8 16)}
    {tree : FileTreeSnapshot} {ttl : Nat} {offer : LocalFileOffer} {answers : PublishAnswers}
    (hpublish : world.publishTree guid tree ttl = (world', .ok offer))
    (hvalid : validateVirtualDescriptorTree toLowercase (tree.entries.map (·.descriptor)) = .ok ())
    (hrandom : ∀ i, ∃ id, answers.random i = .ok id) (hlive : answers.ttlAt < offer.expiresAt)
    (hclock : answers.createdAt + offer.remainingTtl answers.ttlAt < instantLimit) :
    ∃ offered, fromLocalOffer toLowercase world' answers offer = .ok offered ∧
      offered.storedManifest.entries.map (·.descriptor) = tree.entries.map (·.descriptor) := by
  obtain ⟨created, hcreate, rfl⟩ := LocalWorld.publishTree_cases hpublish
  obtain ⟨-, hentries, -⟩ := LocalWorld.createTree_cases hcreate
  have hbacks := (LocalWorld.createTree_backs hcreate).evolves
    (created.replaceCurrent_evolves (some offer))
  have hitems : (offer.entries.map fun entry =>
      (entry.snapshot.descriptor, entry.source)).map Prod.fst =
      tree.entries.map (·.descriptor) := by
    rw [List.map_map, hentries]
    conv_rhs => rw [← offerEntries_snapshots world.sources.length tree.entries, List.map_map]
    rfl
  have hremaining : 0 < offer.remainingTtl answers.ttlAt := Nat.sub_pos_of_lt hlive
  rw [← hitems] at hvalid ⊢
  refine newTree_ok hrandom (fun item hitem => ?_) hvalid hremaining hclock
  obtain ⟨entry, hentry, rfl⟩ := List.mem_map.mp hitem
  have hdirectory := offerEntries_directory (hentries ▸ hentry)
  rw [SecureOfferedFile.sourceMismatch, isDirectory_descriptor, hdirectory, bne_self_eq_false,
    Bool.false_or]
  cases hs : entry.source with
  | none => rfl
  | some s =>
    obtain ⟨source, hsource, hsnapshot, -⟩ := hbacks entry hentry s hs
    simp [hsource, hsnapshot, size_descriptor]

structure Accepted (toLowercase : Char → Text) (tree : FileTreeSnapshot) (total : UInt64) :
    Prop where
  published : ∀ (world : LocalWorld) offerId ttl, 0 < ttl → world.now + ttl < instantLimit →
    ∃ offer world', world.publishTree (.ok offerId) tree ttl = (world', .ok offer)
  offered : ∀ (world world' : LocalWorld) guid ttl offer answers,
    world.publishTree guid tree ttl = (world', .ok offer) →
      (∀ i, ∃ id, answers.random i = .ok id) → answers.ttlAt < offer.expiresAt →
        answers.createdAt + offer.remainingTtl answers.ttlAt < instantLimit →
          ∃ offered, fromLocalOffer toLowercase world' answers offer = .ok offered ∧
            offered.storedManifest.entries.map (·.descriptor) = tree.entries.map (·.descriptor)
  received : ∀ (offered : SecureOfferedFile Nat) checkedAt readAt,
    offered.storedManifest.entries.map (·.descriptor) = tree.entries.map (·.descriptor) →
      (offered.storedManifest.entries.map (·.fileId)).Nodup → checkedAt ≤ readAt →
        1 ≤ asMillis (offered.expiresAt - readAt) →
          asMillis (offered.expiresAt - readAt) < 2 ^ 64 → ∃ response manifest,
            encodeManifestResponse offered checkedAt readAt [] = .ok response ∧
            decodeManifestResponse toLowercase response = .ok manifest ∧
            manifest.entries = offered.storedManifest.entries ∧
            ∀ direction, (summarizeManifest direction manifest).totalSize = total

theorem publishTree_ok {world : LocalWorld} {offerId : List.Vector UInt8 16} {ttl : Nat}
    (tree : FileTreeSnapshot) (httl : 0 < ttl) (hclock : world.now + ttl < instantLimit) :
    ∃ offer world', world.publishTree (.ok offerId) tree ttl = (world', .ok offer) := by
  have hexpires : checkedAddInstant world.now ttl = some (world.now + ttl) := if_pos hclock
  rw [LocalWorld.publishTree, LocalWorld.createTree, if_neg (by omega), ok_bind, hexpires]
  exact ⟨_, _, rfl⟩

theorem decode_offered {offered : SecureOfferedFile Nat} {checkedAt readAt : Nat}
    (hwell : WellFormedTree toLowercase (offered.storedManifest.entries.map (·.descriptor)))
    (hids : (offered.storedManifest.entries.map (·.fileId)).Nodup) (hclock : checkedAt ≤ readAt)
    (hms : 1 ≤ asMillis (offered.expiresAt - readAt))
    (hlt : asMillis (offered.expiresAt - readAt) < 2 ^ 64) :
    ∃ response manifest, encodeManifestResponse offered checkedAt readAt [] = .ok response ∧
      decodeManifestResponse toLowercase response = .ok manifest ∧
      manifest.entries = offered.storedManifest.entries := by
  have hlive : checkedAt < offered.expiresAt := by
    have hpositive : 0 < offered.expiresAt - readAt := by
      by_contra hdead
      rw [Nat.eq_zero_of_not_pos hdead] at hms
      exact absurd hms (by decide)
    omega
  exact ⟨_, _, encodeManifestResponse_eq hwell hlive,
    decodeManifestResponse_bytes (offered.manifest readAt) hwell hids hms hlt, rfl⟩

theorem accepted_of_valid {tree : FileTreeSnapshot} {total : UInt64}
    (hvalid : validateVirtualDescriptorTree toLowercase (tree.entries.map (·.descriptor)) = .ok ())
    (htotal : capturedTotal tree.entries = .ok total) : Accepted toLowercase tree total where
  published world offerId ttl httl hclock := publishTree_ok tree httl hclock
  offered world world' guid ttl offer answers hpublish hrandom hlive hclock :=
    fromLocalOffer_ok hpublish hvalid hrandom hlive hclock
  received offered checkedAt readAt hsent hids hclock hms hlt := by
    have hwell := (validate_eq_ok_iff _).mp hvalid
    rw [← hsent] at hwell
    obtain ⟨response, manifest, hencode, hdecode, hentries⟩ :=
      decode_offered hwell hids hclock hms hlt
    have hdescriptors := (congrArg (List.map (·.descriptor)) hentries).trans hsent
    exact ⟨response, manifest, hencode, hdecode, hentries,
      (captured_total_exact hvalid htotal hdescriptors).2⟩

theorem capturedTotal_eq_ok {total : UInt64} : capturedTotal entries = .ok total ↔
    sumChecked ((entries.filter fun entry => !entry.isDirectory).map (·.size)) = some total := by
  rw [capturedTotal]
  cases sumChecked ((entries.filter fun entry => !entry.isDirectory).map (·.size)) <;> simp

theorem selectedRoot_name {path : List UInt16} (h : SelectedRoot files path snapshot) :
    '\\' ∉ snapshot.fileName := by
  obtain ⟨root, -, rootName, -, hname, hcaptured⟩ := h
  rw [(captureAt_ok hcaptured).2]
  exact no_separator hname

theorem capture_walks_tree {paths : List (List UInt16)} {tree : FileTreeSnapshot}
    (h : files.capture lowercase toLowercase paths = .ok tree) :
    (∃ roots, List.Forall₂ (SelectedRoot files) paths roots ∧
      ∀ entries, (treeGraph files lowercase).Visits [] roots entries ↔ entries = tree.entries) ∧
    (∀ front entry back, tree.entries = front ++ entry :: back → '\\' ∈ entry.fileName →
      ∃ parent ∈ front, parent.isDirectory = true ∧ DirectlyIn parent entry) ∧
    (∀ top ∈ tree.entries, ∀ inner ∈ tree.entries, ∀ bottom ∈ tree.entries, Beneath top inner →
      top.identity = inner.identity → ¬Beneath inner bottom) ∧
    tree.entries.length ≤ maxVirtualItems ∧
    (∀ entry ∈ tree.entries, (components entry.fileName).length ≤ maxVirtualDepth) ∧
    validateVirtualDescriptorTree toLowercase (tree.entries.map (·.descriptor)) = .ok () ∧
    ∃ total, capturedTotal tree.entries = .ok total ∧ totalSize tree = total ∧
      total.toNat = exactSum (fileSizes tree) ∧ Accepted toLowercase tree total := by
  obtain ⟨⟨roots, hroots, hvisits⟩, hvalid, total, htotal⟩ := capture_cases h
  have hwell := (validate_eq_ok_iff _).mp hvalid
  have hwalked : Walked files lowercase toLowercase roots tree.entries := by
    refine ⟨fun root hroot => ?_, hvisits, hwell⟩
    obtain ⟨i, hi, rfl⟩ := List.mem_iff_getElem.mp hroot
    exact selectedRoot_name (hroots.get (hroots.length_eq ▸ hi) hi)
  have hexact : total.toNat = exactSum (fileSizes tree) := sumChecked_eq_some.mp
    (capturedTotal_eq_ok.mp htotal)
  refine ⟨⟨roots, hroots, fun entries => ⟨fun hentries => ?_, ?_⟩⟩, ?_, ?_, ?_, ?_, hvalid, total,
    htotal, ?_, hexact, accepted_of_valid hvalid htotal⟩
  · exact hentries.unique (fun _ _ _ => listing_unique) hvisits
  · rintro rfl
    exact hvisits
  · intro front entry back hsplit hdeep
    obtain ⟨parent, hparent, hchild⟩ := hwalked.parent_first hsplit hdeep
    have hmem : parent ∈ tree.entries := hsplit ▸ List.mem_append_left _ hparent
    have hentry : entry ∈ tree.entries :=
      hsplit ▸ List.mem_append_right _ List.mem_cons_self
    have hbeneath : Beneath parent entry := ⟨_, hchild.choose_spec.2⟩
    exact ⟨parent, hparent, (hwalked.entered hmem hmem hentry hbeneath).1, hchild⟩
  · intro top htop inner hinner bottom hbottom hup hsame hdown
    exact (hwalked.entered htop hinner hbottom hdown).2 hup hsame
  · have hitems := hwell.items
    rw [List.length_map] at hitems
    exact hitems
  · intro entry hentry
    exact hwell.depth _ (List.mem_map_of_mem hentry)
  · apply UInt64.toNat_inj.mp
    rw [hexact]
    exact toNat_sum_eq_iff.mpr (hexact ▸ total.toNat_lt)

def loopInformation (directory : Bool) : FileInformation where
  dwFileAttributes := if directory then fileAttributeDirectory else fileAttributeArchive
  ftCreationTime := ⟨0, 0⟩
  ftLastAccessTime := ⟨0, 0⟩
  ftLastWriteTime := ⟨0, 0⟩
  dwVolumeSerialNumber := 1
  nFileSizeHigh := 0
  nFileSizeLow := if directory then 0 else 7
  nFileIndexHigh := 0
  nFileIndexLow := if directory then 1 else 2

def loopFiles : FileSystem where
  isAbsolute path := ['C', ':', '\\'].isPrefixOf path
  fileName path := (components path).getLast?
  join := childVirtualPath
  getFileAttributes path := .ok (loopInformation (path.getLast? != some 'p')).dwFileAttributes
  openSnapshotHandle path := .ok ⟨.ok (loopInformation (path.getLast? != some 'p')), fileTypeDisk⟩
  readDir _ := .ok [.ok [112], .ok [76]]

def loopSnapshot (directory : Bool) (path virtualPath : Text) : FileSnapshot :=
  .fromInformation path virtualPath (loopInformation directory)

def loopTree : FileTreeSnapshot :=
  ⟨[loopSnapshot true ['C', ':', '\\', 'd'] ['d'],
    loopSnapshot true ['C', ':', '\\', 'd', '\\', 'L'] ['d', '\\', 'L'],
    loopSnapshot false ['C', ':', '\\', 'd', '\\', 'p'] ['d', '\\', 'p']]⟩

theorem capture_loop : loopFiles.capture (List.map Char.toLower) (fun c => [c.toLower])
    [[67, 58, 92, 100]] = .ok loopTree := by decide

theorem capture_walks_tree_loop :
    (∀ top ∈ loopTree.entries, ∀ inner ∈ loopTree.entries, ∀ bottom ∈ loopTree.entries,
      Beneath top inner → top.identity = inner.identity → ¬Beneath inner bottom) ∧
    totalSize loopTree = 7 := by
  obtain ⟨-, -, hboundary, -, -, -, total, -, htotal, hexact, -⟩ := capture_walks_tree capture_loop
  refine ⟨hboundary, ?_⟩
  rw [htotal]
  exact UInt64.toNat_inj.mp hexact

end ClipFerry.Capture
