import ClipFerry.DataObject.VirtualFileDataObject

namespace ClipFerry.DataObject

open ByteField Checked Server ClipFerry.Stream VirtualTree

variable {toLowercase : Char → Text} {object : VirtualFileDataObject}
  {allocate : Nat → Except HResult Unit} {attempt : Nat} {format : FormatEtc}
  {entries : List VirtualFileEntry} {descriptors : List FileDescriptorW}

structure ValidEntries (entries : List VirtualFileEntry) : Prop where
  items : entries.length ≤ maxVirtualItems
  sources : ∀ entry ∈ entries,
    entry.sourceFactory.isSome = true ↔ entry.descriptor.isDirectory = false
  paths : ∀ entry ∈ entries, validateVirtualPath entry.descriptor.fileName = .ok ()

theorem checkEntry_ok {entry : VirtualFileEntry} (h : checkEntry entry = .ok ()) :
    entry.sourceFactory.isSome = true ↔ entry.descriptor.isDirectory = false := by
  unfold checkEntry at h
  cases hdir : entry.descriptor.isDirectory with
  | true =>
    rw [hdir, if_pos rfl, guard_eq_ok] at h
    exact ⟨fun hsome => absurd (.inr hsome) h.1, nofun⟩
  | false =>
    rw [hdir, if_neg nofun, guard_eq_ok] at h
    exact ⟨fun _ => rfl, fun _ => Option.isSome_iff_ne_none.mpr (by simpa using h.1)⟩

theorem validEntries_of_ok (h : validateVirtualEntries toLowercase entries = .ok ()) :
    ValidEntries entries := by
  obtain ⟨hsize, h⟩ := guard_eq_ok.mp h
  obtain ⟨⟨⟩, hentries, htree⟩ := bind_eq_ok.mp h
  have hwell := (validate_eq_ok_iff _).mp htree
  refine ⟨Nat.le_of_not_lt (not_or.mp hsize).2, fun entry hentry => ?_, fun entry hentry => ?_⟩
  · exact checkEntry_ok (forM_eq_ok.mp hentries entry hentry)
  · exact hwell.paths _ (List.mem_map_of_mem hentry)

def DescriptorsOf (entries : List VirtualFileEntry) (descriptors : List FileDescriptorW) : Prop :=
  List.Forall₂ (fun entry descriptor => fileDescriptor entry.descriptor = .ok descriptor) entries
    descriptors

theorem exists_descriptors
    (h : ∀ entry ∈ entries, validateVirtualPath entry.descriptor.fileName = .ok ()) :
    ∃ descriptors, DescriptorsOf entries descriptors := by
  induction entries with
  | nil => exact ⟨[], .nil⟩
  | cons entry entries ih =>
    obtain ⟨hpath, hpaths⟩ := List.forall_mem_cons.mp h
    obtain ⟨descriptor, hdescriptor⟩ := fileDescriptor_ok hpath
    obtain ⟨descriptors, hdescriptors⟩ := ih hpaths
    exact ⟨descriptor :: descriptors, .cons hdescriptor hdescriptors⟩

theorem writeAt_append {front old chunk rest : List UInt8} {offset : Nat}
    (hfront : front.length = offset) (hold : old.length = chunk.length) :
    writeAt (front ++ (old ++ rest)) offset chunk = front ++ (chunk ++ rest) := by
  subst hfront
  rw [writeAt, List.take_left, ← hold, ← List.length_append, ← List.append_assoc front old,
    List.drop_left]

theorem writeDescriptors_blocks (h : DescriptorsOf entries descriptors) {front : List UInt8}
    {index : Nat} (hfront : front.length = descriptorOffset + index * descriptorSize) :
    writeDescriptors (front ++ List.replicate (entries.length * descriptorSize) 0) index entries =
      .ok (front ++ descriptors.flatMap (·.bytes)) := by
  induction h generalizing front index with
  | nil => simp [writeDescriptors]
  | @cons entry descriptor entries descriptors hdescriptor hrest ih =>
    have hzeros : List.replicate ((entry :: entries).length * descriptorSize) (0 : UInt8) =
        List.replicate descriptorSize 0 ++ List.replicate (entries.length * descriptorSize) 0 := by
      rw [List.replicate_append_replicate, List.length_cons, Nat.succ_mul, Nat.add_comm]
    have hblock : (List.replicate descriptorSize (0 : UInt8)).length = descriptor.bytes.length := by
      rw [List.length_replicate, length_bytes]
    have hnext : (front ++ descriptor.bytes).length =
        descriptorOffset + (index + 1) * descriptorSize := by
      rw [List.length_append, hfront, length_bytes, Nat.succ_mul, Nat.add_assoc]
    rw [writeDescriptors, hdescriptor, ok_bind, hzeros, writeAt_append hfront hblock,
      ← List.append_assoc, ih hnext, List.flatMap_cons, List.append_assoc]

theorem block_at {index : Nat} {descriptor : FileDescriptorW}
    (h : descriptors[index]? = some descriptor) :
    ((descriptors.flatMap (·.bytes)).drop (index * descriptorSize)).take descriptorSize =
      descriptor.bytes := by
  induction descriptors generalizing index with
  | nil => cases h
  | cons first descriptors ih =>
    have hfirst := length_bytes first
    rw [List.flatMap_cons]
    cases index with
    | zero =>
      cases h
      rw [Nat.zero_mul, List.drop_zero, List.take_left' hfirst]
    | succ index =>
      have hsplit : (index + 1) * descriptorSize =
          first.bytes.length + index * descriptorSize := by
        rw [hfirst, Nat.succ_mul, Nat.add_comm]
      rw [hsplit, ← List.drop_drop, List.drop_left]
      exact ih h

def groupBytes (descriptors : List FileDescriptorW) : List UInt8 :=
  le32 (.ofNat descriptors.length) ++ descriptors.flatMap (·.bytes)

theorem groupCount_bytes (hitems : descriptors.length ≤ maxVirtualItems) :
    groupCount (groupBytes descriptors) = descriptors.length := by
  have hlimit : maxVirtualItems < UInt32.size := by decide
  have hcount : Remaining (groupBytes descriptors) 0 (le32 (.ofNat descriptors.length) ++ _) :=
    .start _
  rw [groupCount, readU32_of_remaining hcount, UInt32.toNat_ofNat_of_lt' (by omega)]

theorem readItem_bytes (h : DescriptorsOf entries descriptors)
    (hitems : entries.length ≤ maxVirtualItems) {index : Nat} {entry : VirtualFileEntry}
    (hentry : entries[index]? = some entry) :
    readItem (groupBytes descriptors) index = some entry.descriptor := by
  have hlength : entries.length = descriptors.length := h.length_eq
  obtain ⟨hindex, rfl⟩ := List.getElem?_eq_some_iff.mp hentry
  have hdescriptor := h.get hindex (hlength ▸ hindex)
  have hcount := groupCount_bytes (hlength ▸ hitems)
  have hdrop : (groupBytes descriptors).drop (descriptorOffset + index * descriptorSize) =
      (descriptors.flatMap (·.bytes)).drop (index * descriptorSize) := by
    have hoffset : (le32 (.ofNat descriptors.length)).length = descriptorOffset := length_le32 _
    rw [groupBytes, ← List.drop_drop, List.drop_left' hoffset]
  rw [readItem, if_pos (by omega), hdrop, block_at (List.getElem?_eq_getElem (by omega))]
  exact readDescriptor_bytes hdescriptor

theorem hglobalMedium_ok (hallocate : ∀ size, allocate size = .ok ()) {bytes : List UInt8}
    (hbytes : bytes ≠ []) : hglobalMedium allocate bytes = .ok (.hglobal bytes) := by
  have hlength : max bytes.length 1 = bytes.length :=
    Nat.max_eq_left (List.length_pos_of_ne_nil hbytes)
  rw [hglobalMedium, hallocate, ok_bind, hlength, Nat.sub_self, List.replicate_zero,
    List.append_nil]

theorem fileDescriptorMedium_ok (hallocate : ∀ size, allocate size = .ok ())
    (hvalid : ValidEntries object.entries) (h : DescriptorsOf object.entries descriptors) :
    object.fileDescriptorMedium allocate = .ok (.hglobal (groupBytes descriptors)) := by
  have hitems : object.entries.length ≤ 4096 := hvalid.items
  have hbytes : object.entries.length * descriptorSize ≤ 4096 * 592 :=
    Nat.mul_le_mul_right _ hitems
  have hlimit : usizeLimit = 2 ^ 64 := rfl
  have hsum : checkedAddUsize descriptorOffset (object.entries.length * descriptorSize) =
      some (descriptorOffset + object.entries.length * descriptorSize) := by
    refine if_pos ?_
    rw [descriptorOffset]
    omega
  have hcount : (le32 (.ofNat object.entries.length)).length =
      descriptorOffset + 0 * descriptorSize := length_le32 _
  have hold : (List.replicate descriptorOffset (0 : UInt8)).length =
      (le32 (.ofNat object.entries.length)).length := by
    rw [List.length_replicate, length_le32, descriptorOffset]
  have hbuffer : writeAt (List.replicate (descriptorOffset +
      object.entries.length * descriptorSize) 0) 0 (le32 (.ofNat object.entries.length)) =
      le32 (.ofNat object.entries.length) ++
        List.replicate (object.entries.length * descriptorSize) 0 := by
    rw [← List.replicate_append_replicate]
    exact writeAt_append List.length_nil hold
  rw [VirtualFileDataObject.fileDescriptorMedium, if_neg (by omega), hsum]
  simp only
  rw [if_neg (by omega), hbuffer, writeDescriptors_blocks h hcount, ok_bind, h.length_eq]
  refine hglobalMedium_ok hallocate fun hempty => ?_
  have hlength := congrArg List.length hempty
  rw [List.length_append, length_le32] at hlength
  simp at hlength

def ClipboardFormats.IsGlobal (formats : ClipboardFormats) (cfFormat : UInt16) : Prop :=
  cfFormat = formats.descriptor ∨ cfFormat = formats.preferredEffect ∨ cfFormat = formats.origin

structure ServesContents (object : VirtualFileDataObject) (format : FormatEtc)
    (entry : VirtualFileEntry) (sourceFactory : SourceFactory) : Prop where
  ptd : format.ptd = 0
  dwAspect : format.dwAspect = aspectContent
  tymed : format.tymed &&& tymedIstream ≠ 0
  nonnegative : 0 ≤ format.lindex.toInt
  found : object.entries[format.lindex.toInt.toNat]? = some entry
  source : entry.sourceFactory = some sourceFactory

theorem contents_not_global (hdistinct : object.formats.ids.Nodup)
    (h : format.cfFormat = object.formats.contents) :
    ¬object.formats.IsGlobal format.cfFormat := by
  simp only [ClipboardFormats.ids, List.nodup_cons, List.mem_cons, List.not_mem_nil, not_or]
    at hdistinct
  rw [h]
  rintro (hsame | hsame | hsame)
  · exact hdistinct.1.1 hsame.symm
  · exact hdistinct.2.1.1 hsame
  · exact hdistinct.2.1.2.1 hsame

theorem validate_ok_iff : object.validate format = .ok () ↔
    format.ptd = 0 ∧ format.dwAspect = aspectContent ∧ ∃ expected,
      object.expected format = .ok expected ∧ format.lindex = expected.1 ∧
        format.tymed &&& expected.2 ≠ 0 := by
  rw [VirtualFileDataObject.validate, guard_eq_ok, guard_eq_ok, bind_eq_ok, not_not, not_not]
  refine and_congr_right fun _ => and_congr_right fun _ => exists_congr fun expected => ?_
  refine and_congr_right fun _ => ?_
  rw [guard_eq_ok, guard_eq_ok, not_not]
  exact and_congr_right fun _ => ⟨fun h => h.1, fun h => ⟨h, rfl⟩⟩

theorem expected_contents_iff (hdistinct : object.formats.ids.Nodup)
    (h : format.cfFormat = object.formats.contents) {expected : Int32 × UInt32} :
    object.expected format = .ok expected ↔ expected = (format.lindex, tymedIstream) ∧
      0 ≤ format.lindex.toInt ∧ ∃ entry sourceFactory,
        object.entries[format.lindex.toInt.toNat]? = some entry ∧
          entry.sourceFactory = some sourceFactory := by
  have hglobal := contents_not_global hdistinct h
  rw [ClipboardFormats.IsGlobal] at hglobal
  rw [VirtualFileDataObject.expected, if_neg hglobal, if_pos h, indexOf]
  by_cases hnegative : 0 ≤ format.lindex.toInt
  · simp only [if_pos hnegative, guard_eq_ok]
    cases hentry : object.entries[format.lindex.toInt.toNat]? with
    | none => simp
    | some entry =>
      cases hsource : entry.sourceFactory with
      | none => simp [hsource]
      | some sourceFactory => simp [hsource, hnegative, eq_comm]
  · simp [hnegative]

theorem validate_contents (hdistinct : object.formats.ids.Nodup)
    (h : format.cfFormat = object.formats.contents) :
    object.validate format = .ok () ↔
      ∃ entry sourceFactory, ServesContents object format entry sourceFactory := by
  rw [validate_ok_iff]
  constructor
  · rintro ⟨hptd, haspect, expected, hexpected, -, htymed⟩
    obtain ⟨rfl, hindex, entry, sourceFactory, hentry, hsource⟩ :=
      (expected_contents_iff hdistinct h).mp hexpected
    exact ⟨entry, sourceFactory, hptd, haspect, htymed, hindex, hentry, hsource⟩
  · rintro ⟨entry, sourceFactory, hserves⟩
    refine ⟨hserves.ptd, hserves.dwAspect, _, (expected_contents_iff hdistinct h).mpr
      ⟨rfl, hserves.nonnegative, entry, sourceFactory, hserves.found, hserves.source⟩, rfl,
      hserves.tymed⟩

theorem expected_unknown (hglobal : ¬object.formats.IsGlobal format.cfFormat)
    (hcontents : format.cfFormat ≠ object.formats.contents) :
    object.expected format = .error .formatEtc :=
  (if_neg hglobal).trans (if_neg hcontents)

theorem contentsMedium_ok {entry : VirtualFileEntry} {sourceFactory : SourceFactory}
    (hserves : ServesContents object format entry sourceFactory)
    (hlen : (sourceFactory attempt).len = entry.descriptor.size) :
    object.contentsMedium attempt format.lindex =
      .ok (.istream entry.descriptor.fileName ⟨sourceFactory attempt, 0⟩) := by
  have hindex : indexOf format.lindex = some format.lindex.toInt.toNat :=
    if_pos hserves.nonnegative
  rw [VirtualFileDataObject.contentsMedium, hindex]
  simp only [hserves.found, hserves.source]
  exact if_neg (not_not.mpr hlen)

theorem mediumFor_contents (hdistinct : object.formats.ids.Nodup)
    (h : format.cfFormat = object.formats.contents) :
    object.mediumFor allocate attempt format = object.contentsMedium attempt format.lindex := by
  have hdescriptor : format.cfFormat ≠ object.formats.descriptor := fun hsame =>
    contents_not_global hdistinct h (.inl hsame)
  rw [VirtualFileDataObject.mediumFor, if_neg hdescriptor, if_pos h]

structure Offers (object : VirtualFileDataObject) (allocate : Nat → Except HResult Unit) :
    Prop where
  entries : ValidEntries object.entries
  distinct : object.formats.ids.Nodup
  allocate : ∀ size, allocate size = .ok ()
  sizes : ∀ entry ∈ object.entries, ∀ sourceFactory ∈ entry.sourceFactory,
    ∀ attempt, (sourceFactory attempt).len = entry.descriptor.size

theorem mediumFor_ok (hoffers : Offers object allocate)
    (h : object.validate format = .ok ()) (attempt : Nat) :
    ∃ medium, object.mediumFor allocate attempt format = .ok medium := by
  by_cases hcontents : format.cfFormat = object.formats.contents
  · obtain ⟨entry, sourceFactory, hserves⟩ := (validate_contents hoffers.distinct hcontents).mp h
    have hlen := hoffers.sizes entry (List.mem_of_getElem? hserves.found) sourceFactory
      hserves.source attempt
    rw [mediumFor_contents hoffers.distinct hcontents]
    exact ⟨_, contentsMedium_ok hserves hlen⟩
  · have hglobal : object.formats.IsGlobal format.cfFormat := by
      by_contra hunknown
      obtain ⟨-, -, expected, hexpected, -⟩ := validate_ok_iff.mp h
      rw [expected_unknown hunknown hcontents] at hexpected
      cases hexpected
    have hmedium : ∀ bytes, ∃ medium, hglobalMedium allocate bytes = .ok medium := by
      intro bytes
      exact ⟨_, bind_eq_ok.mpr ⟨(), hoffers.allocate _, rfl⟩⟩
    unfold VirtualFileDataObject.mediumFor
    by_cases hdescriptor : format.cfFormat = object.formats.descriptor
    · obtain ⟨descriptors, hdescriptors⟩ := exists_descriptors hoffers.entries.paths
      rw [if_pos hdescriptor]
      exact ⟨_, fileDescriptorMedium_ok hoffers.allocate hoffers.entries hdescriptors⟩
    · rw [if_neg hdescriptor, if_neg hcontents]
      by_cases heffect : format.cfFormat = object.formats.preferredEffect
      · rw [if_pos heffect]
        exact hmedium _
      · rw [if_neg heffect, if_pos (hglobal.resolve_left hdescriptor |>.resolve_left heffect)]
        exact hmedium _

theorem getData_iff (hoffers : Offers object allocate) (attempt : Nat)
    (format : Option FormatEtc) :
    (∃ medium, object.getData allocate attempt format = .ok medium) ↔
      object.queryGetData format = .ok () := by
  cases format with
  | none => exact ⟨nofun, nofun⟩
  | some format =>
    constructor
    · rintro ⟨medium, h⟩
      obtain ⟨⟨⟩, hvalid, -⟩ := bind_eq_ok.mp h
      exact hvalid
    · intro hvalid
      obtain ⟨medium, hmedium⟩ := mediumFor_ok hoffers hvalid attempt
      exact ⟨medium, bind_eq_ok.mpr ⟨(), hvalid, hmedium⟩⟩

theorem tymedHglobal_self : tymedHglobal &&& tymedHglobal ≠ 0 := by decide

theorem tymedIstream_self : tymedIstream &&& tymedIstream ≠ 0 := by decide

theorem query_formatEtc_global {cfFormat : UInt16} (h : object.formats.IsGlobal cfFormat) :
    object.queryGetData (some (formatEtc cfFormat (-1) tymedHglobal)) = .ok () :=
  validate_ok_iff.mpr ⟨rfl, rfl, _, if_pos h, rfl, tymedHglobal_self⟩

theorem query_formatEtc_contents (hoffers : Offers object allocate) {index : Int32}
    (h : object.firstContentIndex = some index) :
    object.queryGetData (some (formatEtc object.formats.contents index tymedIstream)) = .ok () := by
  obtain ⟨first, hfirst, h⟩ := Option.bind_eq_some_iff.mp h
  split at h
  · rename_i hlimit
    cases h
    obtain ⟨hlt, hsource, -⟩ := List.findIdx?_eq_some_iff_getElem.mp hfirst
    obtain ⟨sourceFactory, hsource⟩ := Option.isSome_iff_exists.mp hsource
    have hindex : (Int32.ofNat first).toInt = first := Int32.toInt_ofNat_of_lt hlimit
    refine (validate_contents hoffers.distinct rfl).mpr ⟨object.entries[first], sourceFactory,
      rfl, rfl, tymedIstream_self, ?_, ?_, hsource⟩
    · exact hindex ▸ Int.natCast_nonneg first
    · change object.entries[(Int32.ofNat first).toInt.toNat]? = _
      rw [hindex, Int.toNat_natCast, List.getElem?_eq_getElem hlt]
  · cases h

theorem query_enumerated (hoffers : Offers object allocate)
    (h : format ∈ object.formats.enumerated object.firstContentIndex) :
    object.queryGetData (some format) = .ok () := by
  rcases List.mem_cons.mp h with rfl | h
  · exact query_formatEtc_global (.inl rfl)
  · rcases List.mem_append.mp h with h | h
    · obtain ⟨index, hindex, rfl⟩ := List.mem_map.mp h
      exact query_formatEtc_contents hoffers (Option.mem_toList.mp hindex)
    · rcases List.mem_pair.mp h with rfl | rfl
      · exact query_formatEtc_global (.inr (.inl rfl))
      · exact query_formatEtc_global (.inr (.inr rfl))

theorem EnumeratorStep.formats {enumerator enumerator' : FormatEnumerator}
    (h : EnumeratorStep enumerator enumerator') : enumerator'.formats = enumerator.formats := by
  cases h with
  | next requested outputNull fetchedNull =>
    rw [FormatEnumerator.next]
    split
    · rfl
    · split <;> rfl
  | skip | reset => rfl

theorem enumerator_formats {enumerator enumerator' : FormatEnumerator}
    (h : Relation.ReflTransGen EnumeratorStep enumerator enumerator') :
    enumerator'.formats = enumerator.formats := by
  induction h with
  | refl => rfl
  | tail _ last ih => exact last.formats.trans ih

theorem mem_of_next {enumerator after : FormatEnumerator} {requested : UInt32}
    {outputNull fetchedNull complete : Bool} {formats : List FormatEtc}
    (h : enumerator.next requested outputNull fetchedNull = (.ok (complete, formats), after))
    (hformat : format ∈ formats) : format ∈ enumerator.formats := by
  rw [FormatEnumerator.next] at h
  split at h
  · cases h
  · split at h
    · cases h
    · cases h
      exact List.mem_of_mem_drop (List.mem_of_mem_take hformat)

theorem getData_contents (hoffers : Offers object allocate) {medium : StgMedium}
    (hcontents : format.cfFormat = object.formats.contents)
    (h : object.getData allocate attempt (some format) = .ok medium) :
    ∃ entry sourceFactory, object.entries[format.lindex.toInt.toNat]? = some entry ∧
      entry.sourceFactory = some sourceFactory ∧
      medium = .istream entry.descriptor.fileName ⟨sourceFactory attempt, 0⟩ := by
  obtain ⟨⟨⟩, hvalid, hmedium⟩ := bind_eq_ok.mp h
  obtain ⟨entry, sourceFactory, hserves⟩ :=
    (validate_contents hoffers.distinct hcontents).mp hvalid
  have hlen := hoffers.sizes entry (List.mem_of_getElem? hserves.found) sourceFactory
    hserves.source attempt
  rw [mediumFor_contents hoffers.distinct hcontents, contentsMedium_ok hserves hlen] at hmedium
  exact ⟨entry, sourceFactory, hserves.found, hserves.source, (Except.ok.inj hmedium).symm⟩

theorem served_iff_file (hoffers : Offers object allocate)
    (hcontents : format.cfFormat = object.formats.contents) :
    (∃ medium, object.getData allocate attempt (some format) = .ok medium) ↔
      format.ptd = 0 ∧ format.dwAspect = aspectContent ∧ format.tymed &&& tymedIstream ≠ 0 ∧
        0 ≤ format.lindex.toInt ∧ ∃ entry,
          object.entries[format.lindex.toInt.toNat]? = some entry ∧
            entry.descriptor.isDirectory = false := by
  rw [getData_iff hoffers, VirtualFileDataObject.queryGetData,
    validate_contents hoffers.distinct hcontents]
  constructor
  · rintro ⟨entry, sourceFactory, hserves⟩
    have hfile := (hoffers.entries.sources entry (List.mem_of_getElem? hserves.found)).mp
      (Option.isSome_iff_exists.mpr ⟨_, hserves.source⟩)
    exact ⟨hserves.ptd, hserves.dwAspect, hserves.tymed, hserves.nonnegative, entry,
      hserves.found, hfile⟩
  · rintro ⟨hptd, haspect, htymed, hindex, entry, hentry, hfile⟩
    obtain ⟨sourceFactory, hsource⟩ := Option.isSome_iff_exists.mp
      ((hoffers.entries.sources entry (List.mem_of_getElem? hentry)).mpr hfile)
    exact ⟨entry, sourceFactory, hptd, haspect, htymed, hindex, hentry, hsource⟩

theorem length_groupBytes (descriptors : List FileDescriptorW) :
    (groupBytes descriptors).length = descriptorOffset + descriptors.length * descriptorSize := by
  rw [groupBytes, List.length_append, length_le32, List.length_flatMap]
  simp only [length_bytes, List.map_const', List.sum_replicate_nat]
  rfl

theorem writeFileName_contained (destination : List.Vector UInt16 fileNameUnits) (name : Text) :
    (∃ written, writeFileName destination name = .ok written ∧
      (Utf16.encode name).length < fileNameUnits ∧ written.val = Utf16.encode name ++
        0 :: destination.val.drop ((Utf16.encode name).length + 1)) ∨
    ∃ error, validateVirtualPath name = .error error ∧
      writeFileName destination name = .error error := by
  cases hpath : validateVirtualPath name with
  | error error =>
    refine .inr ⟨error, rfl, ?_⟩
    rw [writeFileName, hpath]
    rfl
  | ok =>
    have hwritten := length_written destination (units_of_path hpath)
    exact .inl ⟨⟨_, hwritten⟩, writeFileName_eq_ok.mpr ⟨hpath, rfl⟩, units_of_path hpath, rfl⟩

theorem object_keeps_promises (hvalid : validateVirtualEntries toLowercase object.entries = .ok ())
    (hdistinct : object.formats.ids.Nodup) (hallocate : ∀ size, allocate size = .ok ())
    (hsizes : ∀ entry ∈ object.entries, ∀ sourceFactory ∈ entry.sourceFactory,
      ∀ attempt, (sourceFactory attempt).len = entry.descriptor.size) :
    (∀ attempt format, (∃ medium, object.getData allocate attempt format = .ok medium) ↔
      object.queryGetData format = .ok ()) ∧
    (∀ listed enumerator requested outputNull fetchedNull complete formats after,
      object.enumFormatEtc datadirGet = .ok listed →
        Relation.ReflTransGen EnumeratorStep listed enumerator →
          enumerator.next requested outputNull fetchedNull = (.ok (complete, formats), after) →
            ∀ format ∈ formats, object.queryGetData (some format) = .ok ()) ∧
    (∀ attempt format, format.cfFormat = object.formats.contents →
      ((∃ medium, object.getData allocate attempt (some format) = .ok medium) ↔
        format.ptd = 0 ∧ format.dwAspect = aspectContent ∧ format.tymed &&& tymedIstream ≠ 0 ∧
          0 ≤ format.lindex.toInt ∧ ∃ entry,
            object.entries[format.lindex.toInt.toNat]? = some entry ∧
              entry.descriptor.isDirectory = false) ∧
      ∀ medium, object.getData allocate attempt (some format) = .ok medium →
        ∃ entry sourceFactory, object.entries[format.lindex.toInt.toNat]? = some entry ∧
          entry.sourceFactory = some sourceFactory ∧
          medium = .istream entry.descriptor.fileName ⟨sourceFactory attempt, 0⟩) ∧
    (∃ bytes, (∀ attempt format, format.cfFormat = object.formats.descriptor →
        object.queryGetData (some format) = .ok () →
          object.getData allocate attempt (some format) = .ok (.hglobal bytes)) ∧
      groupCount bytes = object.entries.length ∧
      bytes.length = descriptorOffset + object.entries.length * descriptorSize ∧
      ∀ (index : Nat) (entry : VirtualFileEntry), object.entries[index]? = some entry →
        readItem bytes index = some entry.descriptor) ∧
    ∀ destination name, (∃ written, writeFileName destination name = .ok written ∧
        (Utf16.encode name).length < fileNameUnits ∧ written.val = Utf16.encode name ++
          0 :: destination.val.drop ((Utf16.encode name).length + 1)) ∨
      ∃ error, validateVirtualPath name = .error error ∧
        writeFileName destination name = .error error := by
  have hoffers : Offers object allocate :=
    ⟨validEntries_of_ok hvalid, hdistinct, hallocate, hsizes⟩
  refine ⟨getData_iff hoffers, fun listed enumerator requested outputNull fetchedNull complete
      formats after hlisted hreached hnext format hformat => ?_,
    fun attempt format hcontents => ⟨served_iff_file hoffers hcontents,
      fun medium => getData_contents hoffers hcontents⟩, ?_, writeFileName_contained⟩
  · have hmem := mem_of_next hnext hformat
    rw [enumerator_formats hreached] at hmem
    cases hlisted
    exact query_enumerated hoffers hmem
  · obtain ⟨descriptors, hdescriptors⟩ := exists_descriptors hoffers.entries.paths
    have hlength : object.entries.length = descriptors.length := hdescriptors.length_eq
    refine ⟨groupBytes descriptors, fun attempt format hformat hquery => ?_, ?_, ?_,
      fun index entry => readItem_bytes hdescriptors hoffers.entries.items⟩
    · refine bind_eq_ok.mpr ⟨(), hquery, ?_⟩
      rw [VirtualFileDataObject.mediumFor, if_pos hformat]
      exact fileDescriptorMedium_ok hallocate hoffers.entries hdescriptors
    · rw [hlength]
      exact groupCount_bytes (hlength ▸ hoffers.entries.items)
    · rw [hlength]
      exact length_groupBytes descriptors

def folder : VirtualFileEntry :=
  ⟨⟨['d'], 0, fileAttributeDirectory, none, none, none⟩, none⟩

def fileInFolder : VirtualFileEntry :=
  ⟨⟨['d', '\\', 'a'], 3, fileAttributeNormal, none, none, some ⟨7, 9⟩⟩,
    some fun _ => memorySource [1, 2, 3]⟩

def folderOrigin : List UInt8 :=
  ("ClipFerry.SourceOffer.v1".toList.map fun c => c.toUInt8) ++ 0 :: List.replicate 16 9

def folderObject : VirtualFileDataObject := ⟨⟨1, 2, 3, 4⟩, [folder, fileInFolder], folderOrigin⟩

theorem object_keeps_promises_folder :
    (∃ bytes, folderObject.getData (fun _ => .ok ()) 0 (some (formatEtc 1 (-1) tymedHglobal)) =
        .ok (.hglobal bytes) ∧ bytes.length = 1188 ∧
      readItem bytes 0 = some folder.descriptor ∧
      readItem bytes 1 = some fileInFolder.descriptor) ∧
    (∃ medium, folderObject.getData (fun _ => .ok ()) 0 (some (formatEtc 4 (-1) tymedHglobal)) =
      .ok medium) ∧
    (∃ medium, folderObject.getData (fun _ => .ok ()) 0 (some (formatEtc 2 1 tymedIstream)) =
      .ok medium) ∧
    ¬∃ medium, folderObject.getData (fun _ => .ok ()) 0 (some (formatEtc 2 0 tymedIstream)) =
      .ok medium := by
  have hvalid : validateVirtualEntries (fun c => [c.toLower]) folderObject.entries = .ok () := by
    decide
  have hsizes : ∀ entry ∈ folderObject.entries, ∀ sourceFactory ∈ entry.sourceFactory,
      ∀ attempt, (sourceFactory attempt).len = entry.descriptor.size := by
    intro entry hentry sourceFactory hsource attempt
    rcases List.mem_pair.mp hentry with rfl | rfl
    · cases hsource
    · cases hsource
      rfl
  obtain ⟨hgiven, -, hcontents, ⟨bytes, hget, -, hlength, hitems⟩, -⟩ :=
    @object_keeps_promises _ folderObject (fun _ => .ok ()) hvalid (by decide) (fun _ => rfl) hsizes
  refine ⟨⟨bytes, hget 0 _ rfl rfl, hlength, hitems 0 folder rfl, hitems 1 fileInFolder rfl⟩,
    (hgiven 0 _).mpr rfl, (hcontents 0 _ rfl).1.mpr
      ⟨rfl, rfl, by decide, by decide, fileInFolder, rfl, by decide⟩, fun hfolder => ?_⟩
  obtain ⟨-, -, -, -, entry, hentry, hfile⟩ := (hcontents 0 _ rfl).1.mp hfolder
  cases hentry
  cases hfile

end ClipFerry.DataObject
