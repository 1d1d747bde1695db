import ClipFerry.Protocol.Offer

namespace ClipFerry.Protocol

open ByteField VirtualTree Checked

def manifestHeaderLen : Nat := 29

def manifestEntryFixedLen : Nat := 55

def asBytes (name : Text) : List UInt8 := name.flatMap String.utf8EncodeChar

def fromUtf8 (bytes : List UInt8) : Except IoError Text :=
  match bytes.toByteArray.utf8Decode? with
  | some name => .ok name.toList
  | none => .error (invalidData "invalid utf-8 sequence")

theorem fromUtf8_asBytes (name : Text) : fromUtf8 (asBytes name) = .ok name := by
  have h : (asBytes name).toByteArray.utf8Decode? = some name.toArray :=
    List.utf8Decode?_utf8Encode
  rw [fromUtf8, h]

theorem asBytes_fromUtf8 {bytes : List UInt8} {name : Text} (h : fromUtf8 bytes = .ok name) :
    asBytes name = bytes := by
  rw [fromUtf8] at h
  split at h
  · next decoded hdecoded =>
    cases h
    obtain ⟨hsome, rfl⟩ := Option.eq_some_iff_get_eq.mp hdecoded
    exact List.toByteArray_inj.mp ByteArray.utf8Encode_get_utf8Decode?
  · cases h

def filetimeBits : Option FileTime → UInt64
  | none => 0
  | some time => time.dwLowDateTime.toUInt64 ||| (time.dwHighDateTime.toUInt64 <<< 32)

def filetimeFromBits (value : UInt64) : FileTime where
  dwLowDateTime := (value &&& 0xffffffff).toUInt32
  dwHighDateTime := (value >>> 32).toUInt32

theorem filetimeFromBits_bits (time : FileTime) :
    filetimeFromBits (filetimeBits (some time)) = time := by
  obtain ⟨low, high⟩ := time
  have hl := low.toNat_lt
  have hh := high.toNat_lt
  have hbits : (low.toUInt64 ||| (high.toUInt64 <<< 32)).toNat =
      high.toNat * 2 ^ 32 + low.toNat := by
    rw [UInt64.toNat_or, UInt64.toNat_shiftLeft]
    simp only [UInt32.toNat_toUInt64, UInt64.reduceToNat, Nat.reduceMod]
    rw [Nat.mod_eq_of_lt (by rw [Nat.shiftLeft_eq]; omega), Nat.or_comm,
      ← Nat.shiftLeft_add_eq_or_of_lt hl, Nat.shiftLeft_eq]
  simp only [filetimeFromBits, filetimeBits, FileTime.mk.injEq]
  constructor
  · apply UInt32.toNat_inj.mp
    have hmask : UInt64.toNat 0xffffffff = 2 ^ 32 - 1 := rfl
    rw [UInt64.toNat_toUInt32, UInt64.toNat_and, hbits, hmask, Nat.and_two_pow_sub_one_eq_mod]
    omega
  · apply UInt32.toNat_inj.mp
    rw [UInt64.toNat_toUInt32, UInt64.toNat_shiftRight, hbits]
    simp only [UInt64.reduceToNat, Nat.reduceMod, Nat.shiftRight_eq_div_pow]
    omega

def presenceFlags (creation access write : Bool) : UInt8 :=
  (if creation then 1 else 0) ||| (if access then 2 else 0) ||| (if write then 4 else 0)

def timeFlags (d : VirtualFileDescriptor) : UInt8 :=
  presenceFlags d.creationTime.isSome d.lastAccessTime.isSome d.lastWriteTime.isSome

theorem presenceFlags_valid : ∀ c a w, presenceFlags c a w &&& ~~~7 = 0 := by decide

theorem presenceFlags_bits : ∀ c a w, (presenceFlags c a w &&& 1 != 0) = c ∧
    (presenceFlags c a w &&& 2 != 0) = a ∧ (presenceFlags c a w &&& 4 != 0) = w := by decide

def entryBytes (entry : OfferManifestEntry) : List UInt8 :=
  let name := asBytes entry.descriptor.fileName
  entry.fileId.bytes.val ++ ((beBytes64 entry.descriptor.size).val
    ++ ((beBytes32 entry.descriptor.attributes).val ++ ([timeFlags entry.descriptor]
    ++ ((beBytes64 (filetimeBits entry.descriptor.creationTime)).val
    ++ ((beBytes64 (filetimeBits entry.descriptor.lastAccessTime)).val
    ++ ((beBytes64 (filetimeBits entry.descriptor.lastWriteTime)).val
    ++ ((beBytes16 (.ofNat name.length)).val ++ name)))))))

def appendEntry (response : List UInt8) (entry : OfferManifestEntry) : WireResult (List UInt8) :=
  if 2 ^ 16 ≤ (asBytes entry.descriptor.fileName).length then .error .internal
  else if maxSecureManifestBytes < (response ++ entryBytes entry).length then .error .internal
  else .ok (response ++ entryBytes entry)

def manifestHeader (manifest : OfferManifest) : List UInt8 :=
  [ResponseStatus.ok.encode] ++ (manifest.offerId.bytes.val
    ++ ((beBytes64 (millisU64 manifest.ttl)).val
    ++ (beBytes32 (.ofNat manifest.entries.length)).val))

def encodeManifestResponse {σ : Type} (offered : SecureOfferedFile σ) (checkedAt readAt : Nat)
    (payload : List UInt8) : WireResult (List UInt8) :=
  if payload ≠ [] ∨ offered.expiresAt ≤ checkedAt then .error .expired
  else if 2 ^ 32 ≤ (offered.manifest readAt).entries.length then .error .internal
  else (offered.manifest readAt).entries.foldlM appendEntry
    (manifestHeader (offered.manifest readAt))

def presentTime (present : Bool) (bits : UInt64) : Option FileTime :=
  if present then some (filetimeFromBits bits) else none

def decodeEntry (response : List UInt8) (identifiers : List ProtocolId) (cursor : Nat) :
    Except IoError (OfferManifestEntry × Nat) := do
  let fileId ← arrayAtIo 16 response cursor
  if ⟨fileId⟩ ∈ identifiers then .error (invalidData "duplicate offer file identifier") else
  let size ← arrayAtIo 8 response (cursor + 16)
  let attributes ← arrayAtIo 4 response (cursor + 24)
  match response[cursor + 28]? with
  | none => .error (invalidData "truncated offer time flags")
  | some flags =>
  if flags &&& ~~~7 ≠ 0 then .error (invalidData "invalid offer time flags") else
  let creation ← arrayAtIo 8 response (cursor + 29)
  let access ← arrayAtIo 8 response (cursor + 37)
  let write ← arrayAtIo 8 response (cursor + 45)
  let nameLength ← arrayAtIo 2 response (cursor + 53)
  match checkedAddUsize (cursor + 55) (fromBe16 nameLength).toNat with
  | none => .error (invalidData "offer file name length overflow")
  | some nameEnd =>
  match rangeAt response (cursor + 55) nameEnd with
  | none => .error (invalidData "truncated offer file name")
  | some name => do
  let fileName ← fromUtf8 name
  .ok (⟨⟨fileId⟩, ⟨fileName, fromBe64 size, fromBe32 attributes,
    presentTime (flags &&& 1 != 0) (fromBe64 creation),
    presentTime (flags &&& 2 != 0) (fromBe64 access),
    presentTime (flags &&& 4 != 0) (fromBe64 write)⟩⟩, nameEnd)

def decodeEntries (response : List UInt8) :
    Nat → List OfferManifestEntry → Nat → Except IoError (List OfferManifestEntry × Nat)
  | 0, entries, cursor => .ok (entries, cursor)
  | count + 1, entries, cursor => do
    let (entry, next) ← decodeEntry response (entries.map (·.fileId)) cursor
    decodeEntries response count (entries ++ [entry]) next

def checkedMulUsize (a b : Nat) : Option Nat := if a * b < usizeLimit then some (a * b) else none

def minimumLength (itemCount : Nat) : Except IoError Nat :=
  match (checkedMulUsize itemCount manifestEntryFixedLen).bind
      (checkedAddUsize manifestHeaderLen) with
  | none => .error (invalidData "offer manifest length overflow")
  | some minimum => .ok minimum

def decodeManifestResponse (toLowercase : Char → Text) (response : List UInt8) :
    Except IoError OfferManifest := do
  requireOk response
  if response.length < manifestHeaderLen then .error (invalidData "truncated offer manifest") else
  let offerId ← arrayAtIo 16 response 1
  let ttl ← arrayAtIo 8 response 17
  if fromBe64 ttl = 0 then .error (invalidData "expired offer manifest") else
  let count ← arrayAtIo 4 response 25
  let itemCount := (fromBe32 count).toNat
  if itemCount = 0 ∨ maxVirtualItems < itemCount then
    .error (invalidData "invalid offer item count") else
  let minimum ← minimumLength itemCount
  if response.length < minimum ∨ maxSecureManifestBytes < response.length then
    .error (invalidData "invalid offer manifest length") else
  let (entries, cursor) ← decodeEntries response itemCount [] manifestHeaderLen
  if cursor ≠ response.length then .error (invalidData "trailing offer manifest bytes") else
  match validateVirtualDescriptorTree toLowercase (entries.map (·.descriptor)) with
  | .error e => .error (invalidWindows e)
  | .ok () => .ok ⟨⟨offerId⟩, entries, fromMillis (fromBe64 ttl).toNat⟩

theorem utf8Size_le_three {c : Char} (h : c.val < 0x10000) : c.utf8Size ≤ 3 := by
  have hle := c.utf8Size_le_four
  have hne : c.utf8Size ≠ 4 := fun h4 => by
    have hlt := Char.utf8Size_eq_four_iff.mp h4
    rw [UInt32.lt_iff_toNat_lt] at h hlt
    simp at h hlt
    omega
  omega

theorem asBytes_length_le (name : Text) : (asBytes name).length ≤ 3 * utf16Count name := by
  induction name with
  | nil => simp [asBytes, utf16Count]
  | cons c name ih =>
    have hc : c.utf8Size ≤ 3 * lenUtf16 c := by
      unfold lenUtf16
      split
      · rename_i h
        exact utf8Size_le_three h
      · have h4 := c.utf8Size_le_four
        omega
    simp only [asBytes, List.flatMap_cons, List.length_append, String.length_utf8EncodeChar,
      utf16Count, List.map_cons, List.sum_cons] at ih ⊢
    omega

theorem presentTime_bits (time : Option FileTime) :
    presentTime time.isSome (filetimeBits time) = time := by
  cases time with
  | none => rfl
  | some t => simp [presentTime, filetimeFromBits_bits]

theorem length_entryBytes (entry : OfferManifestEntry) : (entryBytes entry).length =
    manifestEntryFixedLen + (asBytes entry.descriptor.fileName).length := by
  simp [entryBytes, manifestEntryFixedLen, beBytes16, beBytes32, beBytes64,
    entry.fileId.bytes.property]
  omega

theorem decodeEntry_entryBytes {response rest : List UInt8} {cursor : Nat}
    {identifiers : List ProtocolId} {entry : OfferManifestEntry}
    (hr : Remaining response cursor (entryBytes entry ++ rest))
    (hid : entry.fileId ∉ identifiers)
    (hname : (asBytes entry.descriptor.fileName).length < 2 ^ 16)
    (hfit : response.length < usizeLimit) :
    decodeEntry response identifiers cursor =
      .ok (entry, cursor + (entryBytes entry).length) := by
  have hlen := length_entryBytes entry
  have hend : cursor + (entryBytes entry).length ≤ response.length := by
    obtain ⟨front, rfl, rfl⟩ := hr
    simp only [List.length_append]
    omega
  simp only [entryBytes, List.append_assoc] at hr
  have hsize := hr.skip (n := 16) entry.fileId.bytes.property
  have hattr := hsize.skip (n := 8) (beBytes64 _).property
  have hflags := hattr.skip (n := 4) (beBytes32 _).property
  have hc := hflags.skip (n := 1) rfl
  have ha := hc.skip (n := 8) (beBytes64 _).property
  have hw := ha.skip (n := 8) (beBytes64 _).property
  have hnl := hw.skip (n := 8) (beBytes64 _).property
  have hn := hnl.skip (n := 2) (beBytes16 _).property
  have hcount : (UInt16.ofNat (asBytes entry.descriptor.fileName).length).toNat =
      (asBytes entry.descriptor.fileName).length := UInt16.toNat_ofNat_of_lt' hname
  have hadd : checkedAddUsize (cursor + 55) (asBytes entry.descriptor.fileName).length =
      some (cursor + 55 + (asBytes entry.descriptor.fileName).length) :=
    if_pos (by simp only [manifestEntryFixedLen] at hlen; omega)
  obtain ⟨h1, h2, h3⟩ := presenceFlags_bits entry.descriptor.creationTime.isSome
    entry.descriptor.lastAccessTime.isSome entry.descriptor.lastWriteTime.isSome
  unfold decodeEntry
  rw [arrayAtIo_remaining hr, ok_bind, if_neg hid, arrayAtIo_remaining hsize, ok_bind,
    arrayAtIo_remaining hattr, ok_bind, hflags.getElem?]
  simp only [timeFlags, presenceFlags_valid, ne_eq, not_true_eq_false, if_false]
  rw [arrayAtIo_remaining hc, ok_bind, arrayAtIo_remaining ha, ok_bind, arrayAtIo_remaining hw,
    ok_bind, arrayAtIo_remaining hnl, ok_bind, fromBe16_beBytes16, hcount, hadd]
  have hname' : rangeAt response (cursor + 55)
      (cursor + 55 + (asBytes entry.descriptor.fileName).length) =
      some (asBytes entry.descriptor.fileName) := hn.rangeAt
  simp only [hname', fromUtf8_asBytes, ok_bind, h1, h2, h3, presentTime_bits, fromBe64_beBytes64,
    fromBe32_beBytes32]
  rw [hlen, manifestEntryFixedLen, ← Nat.add_assoc]

theorem decodeEntries_entryBytes {response rest : List UInt8} {cursor : Nat}
    {entries done : List OfferManifestEntry}
    (hr : Remaining response cursor (entries.flatMap entryBytes ++ rest))
    (hids : ((done ++ entries).map (·.fileId)).Nodup)
    (hnames : ∀ e ∈ entries, (asBytes e.descriptor.fileName).length < 2 ^ 16)
    (hfit : response.length < usizeLimit) :
    decodeEntries response entries.length done cursor =
      .ok (done ++ entries, cursor + (entries.flatMap entryBytes).length) := by
  induction entries generalizing done cursor with
  | nil => simp [decodeEntries]
  | cons entry entries ih =>
    simp only [List.flatMap_cons, List.append_assoc] at hr
    have hid : entry.fileId ∉ done.map (·.fileId) := by
      rw [List.map_append, List.map_cons, List.nodup_middle, List.nodup_cons] at hids
      exact fun h => hids.1 (List.mem_append_left _ h)
    have hentry := decodeEntry_entryBytes hr hid (hnames entry (by simp)) hfit
    have hids : (((done ++ [entry]) ++ entries).map (·.fileId)).Nodup := by simpa using hids
    have hrest := ih hr.advance hids (fun e he => hnames e (List.mem_cons_of_mem _ he))
    rw [List.length_cons, decodeEntries, hentry, ok_bind]
    simp only [hrest, List.append_assoc, List.singleton_append, List.flatMap_cons,
      List.length_append, Nat.add_assoc]

theorem appendEntries_eq_ok {response : List UInt8} {entries : List OfferManifestEntry}
    (hnames : ∀ e ∈ entries, (asBytes e.descriptor.fileName).length < 2 ^ 16)
    (hfit : (response ++ entries.flatMap entryBytes).length ≤ maxSecureManifestBytes) :
    entries.foldlM appendEntry response = .ok (response ++ entries.flatMap entryBytes) := by
  induction entries generalizing response with
  | nil => simp [pure, Except.pure]
  | cons entry entries ih =>
    simp only [List.flatMap_cons, ← List.append_assoc] at hfit ⊢
    have hle : (response ++ entryBytes entry).length ≤ maxSecureManifestBytes := by
      rw [List.length_append] at hfit
      omega
    have hentry : appendEntry response entry = .ok (response ++ entryBytes entry) := by
      rw [appendEntry, if_neg (Nat.not_le.mpr (hnames entry (by simp))),
        if_neg (Nat.not_lt.mpr hle)]
    rw [List.foldlM_cons, hentry, ok_bind]
    exact ih (fun e he => hnames e (List.mem_cons_of_mem _ he)) hfit

theorem length_flatMap_entryBytes (entries : List OfferManifestEntry) :
    (entries.flatMap entryBytes).length ≤ manifestEntryFixedLen * entries.length +
      3 * (entries.map (utf16Count ·.descriptor.fileName)).sum := by
  induction entries with
  | nil => simp
  | cons entry entries ih =>
    have hlen := length_entryBytes entry
    have hname := asBytes_length_le entry.descriptor.fileName
    simp only [List.flatMap_cons, List.length_append, List.length_cons, List.map_cons,
      List.sum_cons, Nat.mul_add, Nat.mul_one]
    omega

@[simp] theorem length_manifestHeader (manifest : OfferManifest) :
    (manifestHeader manifest).length = manifestHeaderLen := by
  simp [manifestHeader, manifestHeaderLen, beBytes64, beBytes32, manifest.offerId.bytes.property]

theorem validateVirtualPath_units {name : Text} (h : validateVirtualPath name = .ok ()) :
    utf16Count name < maxFileNameUnits := by
  unfold validateVirtualPath at h
  split at h
  · cases h
  · rename_i hguard
    simp only [Bool.or_eq_true, decide_eq_true_eq, not_or, Nat.not_le] at hguard
    exact hguard.2

theorem response_fits {toLowercase : Char → Text} (manifest : OfferManifest)
    (wf : WellFormedTree toLowercase (manifest.entries.map (·.descriptor))) :
    (manifestHeader manifest ++ manifest.entries.flatMap entryBytes).length ≤
      maxSecureManifestBytes := by
  have hbytes := length_flatMap_entryBytes manifest.entries
  have hitems := wf.items
  have htotal := wf.total
  rw [List.map_map] at htotal
  simp only [Function.comp_def, List.length_map, maxVirtualItems, maxTotalVirtualPathU16] at *
  simp only [List.length_append, length_manifestHeader, manifestHeaderLen, manifestEntryFixedLen,
    maxSecureManifestBytes] at *
  omega

theorem name_fits {toLowercase : Char → Text} {entries : List OfferManifestEntry}
    (wf : WellFormedTree toLowercase (entries.map (·.descriptor))) :
    ∀ e ∈ entries, (asBytes e.descriptor.fileName).length < 2 ^ 16 := by
  intro e he
  have hpath := wf.paths _ (List.mem_map_of_mem he)
  have hunits := validateVirtualPath_units hpath
  have hbytes := asBytes_length_le e.descriptor.fileName
  simp only [maxFileNameUnits] at hunits
  omega

theorem minimumLength_eq {n : Nat} (h : n ≤ maxVirtualItems) :
    minimumLength n = .ok (manifestHeaderLen + n * manifestEntryFixedLen) := by
  have hmul : n * manifestEntryFixedLen < usizeLimit := by
    simp only [maxVirtualItems, manifestEntryFixedLen, usizeLimit] at *
    omega
  have hadd : manifestHeaderLen + n * manifestEntryFixedLen < usizeLimit := by
    simp only [maxVirtualItems, manifestEntryFixedLen, manifestHeaderLen, usizeLimit] at *
    omega
  rw [minimumLength, checkedMulUsize, if_pos hmul, Option.bind_some, checkedAddUsize, if_pos hadd]

theorem minimum_le_response (manifest : OfferManifest) :
    manifestHeaderLen + manifest.entries.length * manifestEntryFixedLen ≤
      (manifestHeader manifest ++ manifest.entries.flatMap entryBytes).length := by
  have h (entries : List OfferManifestEntry) :
      entries.length * manifestEntryFixedLen ≤ (entries.flatMap entryBytes).length := by
    induction entries with
    | nil => simp
    | cons entry entries ih =>
      have hlen := length_entryBytes entry
      simp only [List.length_cons, List.flatMap_cons, List.length_append, Nat.add_mul, Nat.one_mul]
      omega
  rw [List.length_append, length_manifestHeader]
  exact Nat.add_le_add_left (h manifest.entries) _

theorem decodeManifestResponse_bytes {toLowercase : Char → Text} (manifest : OfferManifest)
    (wf : WellFormedTree toLowercase (manifest.entries.map (·.descriptor)))
    (hids : (manifest.entries.map (·.fileId)).Nodup) (hms : 1 ≤ asMillis manifest.ttl)
    (hlt : asMillis manifest.ttl < 2 ^ 64) :
    decodeManifestResponse toLowercase
        (manifestHeader manifest ++ manifest.entries.flatMap entryBytes) =
      .ok { manifest with ttl := fromMillis (asMillis manifest.ttl) } := by
  have hfits := response_fits manifest wf
  have hminimum := minimum_le_response manifest
  have hitems := wf.items
  have hnonempty := wf.nonempty
  rw [List.length_map] at hitems hnonempty
  generalize hresponse : manifestHeader manifest ++ manifest.entries.flatMap entryBytes = response
    at hfits hminimum ⊢
  have hcount : (UInt32.ofNat manifest.entries.length).toNat = manifest.entries.length :=
    UInt32.toNat_ofNat_of_lt' (Nat.lt_of_le_of_lt hitems (by decide))
  have hmillis : (millisU64 manifest.ttl).toNat = asMillis manifest.ttl := by
    rw [millisU64, if_pos hlt]
    exact UInt64.toNat_ofNat_of_lt' hlt
  have hstart : Remaining response 0 ([ResponseStatus.ok.encode] ++ (manifest.offerId.bytes.val
      ++ ((beBytes64 (millisU64 manifest.ttl)).val ++ ((beBytes32 (.ofNat manifest.entries.length)).val
      ++ (manifest.entries.flatMap entryBytes ++ []))))) := by
    refine ⟨[], ?_, rfl⟩
    rw [← hresponse, manifestHeader]
    simp only [List.append_assoc, List.append_nil, List.nil_append]
  have hoffer : Remaining response 1 _ := hstart.skip (n := 1) rfl
  have httl : Remaining response 17 _ := hoffer.skip (n := 16) manifest.offerId.bytes.property
  have hitem : Remaining response 25 _ := httl.skip (n := 8) (beBytes64 _).property
  have hentries : Remaining response manifestHeaderLen _ :=
    hitem.skip (n := 4) (beBytes32 _).property
  have hok : requireOk response = .ok () := by
    obtain ⟨front, hfront, hzero⟩ := hstart
    obtain rfl := List.length_eq_zero_iff.mp hzero
    rw [hfront]
    rfl
  have hend : manifestHeaderLen + (manifest.entries.flatMap entryBytes).length =
      response.length := by
    rw [← hresponse, List.length_append, length_manifestHeader]
  have hpositive : millisU64 manifest.ttl ≠ 0 := fun h => by
    rw [h] at hmillis
    simp at hmillis
    omega
  have hids : ((([] : List OfferManifestEntry) ++ manifest.entries).map (·.fileId)).Nodup := hids
  have hdecode := decodeEntries_entryBytes hentries hids (name_fits wf)
    (Nat.lt_of_le_of_lt hfits (by decide))
  unfold decodeManifestResponse
  rw [hok, ok_bind, if_neg (by omega), arrayAtIo_remaining hoffer, ok_bind,
    arrayAtIo_remaining httl, ok_bind, fromBe64_beBytes64, if_neg hpositive,
    arrayAtIo_remaining hitem, ok_bind, fromBe32_beBytes32, hcount]
  simp only [hdecode, minimumLength_eq hitems, ok_bind, List.nil_append, hend, ne_eq,
    not_true_eq_false, if_false, hmillis]
  rw [if_neg (by omega), if_neg (by omega), (validate_eq_ok_iff _).mpr wf]

theorem encodeManifestResponse_eq {σ : Type} {toLowercase : Char → Text}
    {offered : SecureOfferedFile σ} {checkedAt readAt : Nat}
    (wf : WellFormedTree toLowercase (offered.storedManifest.entries.map (·.descriptor)))
    (hlive : checkedAt < offered.expiresAt) :
    encodeManifestResponse offered checkedAt readAt [] =
      .ok (manifestHeader (offered.manifest readAt) ++
        (offered.manifest readAt).entries.flatMap entryBytes) := by
  have hitems := wf.items
  rw [List.length_map] at hitems
  have hcount : ¬2 ^ 32 ≤ (offered.manifest readAt).entries.length :=
    Nat.not_le.mpr (Nat.lt_of_le_of_lt hitems (by decide))
  rw [encodeManifestResponse, if_neg (by simp [hlive]), if_neg hcount]
  exact appendEntries_eq_ok (name_fits wf) (response_fits (offered.manifest readAt) wf)

theorem manifest_wire_round_trip {σ : Type} {toLowercase : Char → Text} {len : σ → UInt64}
    {random : Nat → Except IoError ProtocolId} {now : Nat}
    {entries : List (VirtualFileDescriptor × Option σ)} {ttl : Nat}
    {offered : SecureOfferedFile σ} {checkedAt readAt : Nat} (requestId : UInt64)
    (hnew : SecureOfferedFile.newTree toLowercase len random now entries ttl = .ok offered)
    (hids : (offered.storedManifest.entries.map (·.fileId)).Nodup)
    (hclock : checkedAt ≤ readAt)
    (hms : 1 ≤ asMillis (offered.expiresAt - readAt))
    (hlt : asMillis (offered.expiresAt - readAt) < 2 ^ 64) :
    ∃ response frame, encodeManifestResponse offered checkedAt readAt [] = .ok response ∧
      response.length ≤ maxSecureManifestBytes ∧
      writeFrame ⟨responseOpcode .getOffer, requestId, response⟩ = .ok frame ∧
      decodeManifestResponse toLowercase response = .ok
        ⟨offered.storedManifest.offerId, offered.storedManifest.entries,
          fromMillis (asMillis (offered.expiresAt - readAt))⟩ := by
  have wf := SecureOfferedFile.newTree_wellFormed hnew
  have hlive : checkedAt < offered.expiresAt := by
    have hpos : 0 < offered.expiresAt - readAt := by
      by_contra h
      rw [Nat.eq_zero_of_not_pos h] at hms
      exact absurd hms (by decide)
    omega
  have hfits := response_fits (offered.manifest readAt) wf
  obtain ⟨frame, hframe⟩ := writeFrame_fits ⟨responseOpcode .getOffer, requestId, _⟩ hfits
  exact ⟨_, frame, encodeManifestResponse_eq wf hlive, hfits, hframe,
    decodeManifestResponse_bytes (offered.manifest readAt) wf hids hms hlt⟩

def asciiLowercase (c : Char) : Text := [c.toLower]

def folderDescriptor : VirtualFileDescriptor :=
  ⟨['d'], 0, fileAttributeDirectory, some ⟨7, 0⟩, none, some ⟨9, 1⟩⟩

def filedDescriptor : VirtualFileDescriptor :=
  ⟨['d', '\\', 'a'], 5, fileAttributeNormal, none, some ⟨8, 2⟩, none⟩

def folderEntries : List OfferManifestEntry :=
  [⟨repeatedId 1, folderDescriptor⟩, ⟨repeatedId 2, filedDescriptor⟩]

def folderOffer : SecureOfferedFile Unit where
  storedManifest := ⟨repeatedId 0, folderEntries, fromMillis 2⟩
  sources := AList.insert (repeatedId 2) () ∅
  expiresAt := fromMillis 2

theorem manifest_wire_round_trip_folder :
    ∃ response frame, encodeManifestResponse folderOffer 0 0 [] = .ok response ∧
      response.length ≤ maxSecureManifestBytes ∧
      writeFrame ⟨responseOpcode .getOffer, 1, response⟩ = .ok frame ∧
      decodeManifestResponse asciiLowercase response = .ok
        ⟨repeatedId 0, folderEntries, fromMillis 2⟩ := by
  have hnew : SecureOfferedFile.newTree asciiLowercase (fun _ : Unit => 5)
      (fun i => .ok (repeatedId (.ofNat i))) 0
      [(folderDescriptor, none), (filedDescriptor, some ())] (fromMillis 2) = .ok folderOffer := rfl
  exact manifest_wire_round_trip 1 hnew (by decide) (Nat.le_refl 0) (by decide) (by decide)

end ClipFerry.Protocol
