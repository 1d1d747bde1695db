import ClipFerry.DataObject.ObjectLaw
import ClipFerry.Local.Offer

namespace ClipFerry.Product

open VirtualTree Protocol Local DataObject Checked Server

def clipbrdCantOpen : HResult := .other 0x800401D0

def originPayload (manifest : OfferManifest) : List UInt8 :=
  privateOriginPrefix ++ manifest.offerId.bytes.val

/-! `factory entry n` is the source that `create_source_for_entry` makes at the n-th call. -/

def remoteEntry (factory : OfferManifestEntry → SourceFactory) (entry : OfferManifestEntry) :
    VirtualFileEntry :=
  if entry.descriptor.isDirectory = true then ⟨entry.descriptor, none⟩
  else ⟨entry.descriptor, some (factory entry)⟩

def remoteEntries (factory : OfferManifestEntry → SourceFactory) (manifest : OfferManifest) :
    List VirtualFileEntry := manifest.entries.map (remoteEntry factory)

def createWithEntries (toLowercase : Char → Text) (register : Except HResult ClipboardFormats)
    (entries : List VirtualFileEntry) (originPayload : List UInt8) :
    Except HResult VirtualFileDataObject :=
  if originPayload = [] then .error .invalidArg
  else do
    validateVirtualEntries toLowercase entries
    let formats ← register
    .ok ⟨formats, entries, originPayload⟩

def setClipboardAttempts : Nat := 8

def setClipboardFrom (setClipboard : Nat → Except HResult Unit) (last : HResult) :
    List Nat → Except HResult Unit
  | [] => .error last
  | attempt :: later =>
    match setClipboard attempt with
    | .ok () => .ok ()
    | .error error =>
      if error = clipbrdCantOpen then setClipboardFrom setClipboard error later else .error error

def oleSetClipboardWithRetry (setClipboard : Nat → Except HResult Unit) : Except HResult Unit :=
  setClipboardFrom setClipboard .unexpected (List.range setClipboardAttempts)

/-! What the peer, the system and the registry of transfers answer to one call of `register`.
The length of a source that the registry makes is the size that its entry states. -/

structure LeaseAnswers where
  manifest : Except HResult OfferManifest
  formats : Except HResult ClipboardFormats
  factory : OfferManifestEntry → SourceFactory
  sizes : ∀ entry attempt, (factory entry attempt).len = entry.descriptor.size
  setClipboard : Nat → Except HResult Unit

def register (toLowercase : Char → Text) (answers : LeaseAnswers) :
    Except HResult (VirtualFileDataObject × OfferManifest) := do
  let manifest ← answers.manifest
  let object ← createWithEntries toLowercase answers.formats
    (remoteEntries answers.factory manifest) (originPayload manifest)
  oleSetClipboardWithRetry answers.setClipboard
  .ok (object, manifest)

variable {toLowercase : Char → Text} {factory : OfferManifestEntry → SourceFactory}
  {manifest : OfferManifest} {entry : OfferManifestEntry} {formats : ClipboardFormats}
  {object : VirtualFileDataObject} {answers : LeaseAnswers}

theorem remoteEntry_descriptor (factory : OfferManifestEntry → SourceFactory)
    (entry : OfferManifestEntry) : (remoteEntry factory entry).descriptor = entry.descriptor := by
  unfold remoteEntry
  split
  · rfl
  · rfl

theorem remoteEntries_descriptors (factory : OfferManifestEntry → SourceFactory)
    (manifest : OfferManifest) : (remoteEntries factory manifest).map (·.descriptor) =
      manifest.entries.map (·.descriptor) := by
  rw [remoteEntries, List.map_map]
  exact List.map_congr_left fun entry _ => remoteEntry_descriptor factory entry

theorem remoteEntry_source {sourceFactory : SourceFactory} :
    (remoteEntry factory entry).sourceFactory = some sourceFactory ↔
      entry.descriptor.isDirectory = false ∧ factory entry = sourceFactory := by
  unfold remoteEntry
  split
  · next hdirectory => simp [hdirectory]
  · next hfile => simp [hfile]

theorem checkEntry_remote (hsize : entry.descriptor.isDirectory = true → entry.descriptor.size = 0) :
    checkEntry (remoteEntry factory entry) = .ok () := by
  unfold checkEntry remoteEntry
  by_cases hdirectory : entry.descriptor.isDirectory = true
  · simp [hdirectory, hsize hdirectory]
  · simp [hdirectory]

theorem validate_remoteEntries
    (hwell : WellFormedTree toLowercase (manifest.entries.map (·.descriptor))) :
    validateVirtualEntries toLowercase (remoteEntries factory manifest) = .ok () := by
  have hlength : (remoteEntries factory manifest).length =
      (manifest.entries.map (·.descriptor)).length := by
    rw [remoteEntries, List.length_map, List.length_map]
  have hsize : ¬(remoteEntries factory manifest = [] ∨
      maxVirtualItems < (remoteEntries factory manifest).length) := by
    have hnonempty := hwell.nonempty
    have hitems := hwell.items
    rintro (hnil | hmany)
    · rw [← hlength, hnil] at hnonempty
      cases hnonempty
    · omega
  have hentries : (remoteEntries factory manifest).forM checkEntry = .ok () := by
    refine forM_eq_ok.mpr fun entry hentry => ?_
    obtain ⟨listed, hlisted, rfl⟩ := List.mem_map.mp hentry
    exact checkEntry_remote (hwell.directories _ (List.mem_map_of_mem hlisted))
  rw [validateVirtualEntries, if_neg hsize, hentries, remoteEntries_descriptors]
  exact (validate_eq_ok_iff _).mpr hwell

theorem originPayload_ne_nil (manifest : OfferManifest) : originPayload manifest ≠ [] := by
  refine List.append_ne_nil_of_right_ne_nil _ fun hnil => ?_
  have hlength := manifest.offerId.bytes.property
  rw [hnil] at hlength
  cases hlength

theorem createWithEntries_ok
    (hwell : WellFormedTree toLowercase (manifest.entries.map (·.descriptor))) :
    createWithEntries toLowercase (.ok formats) (remoteEntries factory manifest)
      (originPayload manifest) =
        .ok ⟨formats, remoteEntries factory manifest, originPayload manifest⟩ := by
  rw [createWithEntries, if_neg (originPayload_ne_nil manifest), validate_remoteEntries hwell]
  rfl

theorem register_ok (hmanifest : answers.manifest = .ok manifest)
    (hwell : WellFormedTree toLowercase (manifest.entries.map (·.descriptor)))
    (hformats : answers.formats = .ok formats)
    (hset : oleSetClipboardWithRetry answers.setClipboard = .ok ()) :
    register toLowercase answers =
      .ok (⟨formats, remoteEntries answers.factory manifest, originPayload manifest⟩, manifest) := by
  rw [register, hmanifest, ok_bind, hformats, createWithEntries_ok hwell, ok_bind, hset, ok_bind]

theorem createWithEntries_eq_ok {register : Except HResult ClipboardFormats}
    {entries : List VirtualFileEntry} {payload : List UInt8}
    (h : createWithEntries toLowercase register entries payload = .ok object) :
    register = .ok object.formats ∧ validateVirtualEntries toLowercase entries = .ok () ∧
      object.entries = entries ∧ object.originPayload = payload := by
  obtain ⟨-, h⟩ := guard_eq_ok.mp h
  obtain ⟨⟨⟩, hvalid, h⟩ := bind_eq_ok.mp h
  obtain ⟨formats, hformats, h⟩ := bind_eq_ok.mp h
  cases h
  exact ⟨hformats, hvalid, rfl, rfl⟩

structure ObjectOf (factory : OfferManifestEntry → SourceFactory) (manifest : OfferManifest)
    (object : VirtualFileDataObject) : Prop where
  entries : object.entries = remoteEntries factory manifest
  origin : object.originPayload = originPayload manifest
  valid : ValidEntries object.entries

theorem register_eq_ok (h : register toLowercase answers = .ok (object, manifest)) :
    answers.manifest = .ok manifest ∧ answers.formats = .ok object.formats ∧
      ObjectOf answers.factory manifest object := by
  obtain ⟨fetched, hfetched, h⟩ := bind_eq_ok.mp h
  obtain ⟨created, hcreated, h⟩ := bind_eq_ok.mp h
  obtain ⟨⟨⟩, -, h⟩ := bind_eq_ok.mp h
  cases h
  obtain ⟨hformats, hvalid, hentries, horigin⟩ := createWithEntries_eq_ok hcreated
  rw [← hentries] at hvalid
  exact ⟨hfetched, hformats, hentries, horigin, validEntries_of_ok hvalid⟩

theorem ObjectOf.getElem?_entries (h : ObjectOf factory manifest object) (index : Nat) :
    object.entries[index]? = (manifest.entries[index]?).map (remoteEntry factory) := by
  rw [h.entries, remoteEntries, List.getElem?_map]

theorem ObjectOf.offers (h : ObjectOf factory manifest object)
    {allocate : Nat → Except HResult Unit} (hdistinct : object.formats.ids.Nodup)
    (hallocate : ∀ size, allocate size = .ok ())
    (hsizes : ∀ entry attempt, (factory entry attempt).len = entry.descriptor.size) :
    Offers object allocate where
  entries := h.valid
  distinct := hdistinct
  allocate := hallocate
  sizes := by
    intro entry hentry sourceFactory hsource attempt
    rw [h.entries] at hentry
    obtain ⟨listed, hlisted, rfl⟩ := List.mem_map.mp hentry
    obtain ⟨-, rfl⟩ := remoteEntry_source.mp hsource
    rw [remoteEntry_descriptor]
    exact hsizes listed attempt

def retriedLease (manifest : OfferManifest) : LeaseAnswers where
  manifest := .ok manifest
  formats := .ok ⟨1, 2, 3, 4⟩
  factory entry _ := ⟨entry.descriptor.size, fun _ _ _ => .error .readFault⟩
  sizes _ _ := rfl
  setClipboard attempt := if attempt = 0 then .error clipbrdCantOpen else .ok ()

end ClipFerry.Product
