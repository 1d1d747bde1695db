import ClipFerry.Capture.CaptureLaw
import ClipFerry.Client.Integrity
import ClipFerry.Local.ServedSource
import ClipFerry.Product.ListedTree
import ClipFerry.Product.RemoteLease
import ClipFerry.Protocol.OfferSources

namespace ClipFerry.Product

open VirtualTree Protocol Server Local Capture DataObject Client Checked Transition ClipFerry.Stream

/-! A moment at which the sender reads a source, in whatever order its steps are taken. -/

structure ReadsLater (world : LocalWorld) (s : Nat) (content : List UInt8) (moment : ReadMoment) :
    Prop where
  found : ∃ labels later, Run LocalStep world labels later ∧
    later.sources[s]? = some moment.source ∧ later.now = moment.now
  unaltered : moment.disk.Unaltered moment.source.snapshot content

structure ServesOffer (world : LocalWorld) (offered : SecureOfferedFile Nat)
    (contents : FileSnapshot → List UInt8) (server : ServerState) : Prop where
  manifest : server.offered.storedManifest = offered.storedManifest
  sources : ∀ fileId source, server.offered.source fileId = some source →
    ∃ s size moments file, offered.source fileId = some s ∧ source = localSource size moments ∧
      world.sources[s]? = some file ∧
        ∀ attempt, ReadsLater world s (contents file.snapshot) (moments attempt)

inductive Copies : VirtualStream → List UInt8 → VirtualStream → Prop
  | nil {stream : VirtualStream} : Copies stream [] stream
  | read {stream next last : VirtualStream} {bytes rest : List UInt8} {attempt : Nat}
      {requested : UInt32} : stream.readImpl attempt false requested = .ok (bytes, next) →
      Copies next rest last → Copies stream (bytes ++ rest) last

theorem Copies.exact {stream last : VirtualStream} {content bytes : List UInt8}
    (h : Copies stream bytes last) (hexact : Exact stream.source content) :
    Exact last.source content ∧ bytes = (content.drop stream.position.toNat).take bytes.length ∧
      last.position.toNat = stream.position.toNat + bytes.length := by
  induction h with
  | nil => exact ⟨hexact, rfl, rfl⟩
  | @read stream next last bytes rest attempt requested hread hrest ih =>
    obtain ⟨hbytes, hsource, hposition⟩ := VirtualStream.readImpl_exact hexact hread
    obtain ⟨hlast, hcopied, hend⟩ := ih (hsource ▸ hexact)
    have hlength := congrArg List.length hbytes
    have hfirst : bytes = (content.drop stream.position.toNat).take bytes.length := by
      conv_lhs => rw [hbytes]
      rw [List.take_eq_take_iff]
      rw [List.length_take] at hlength
      omega
    refine ⟨hlast, ?_, ?_⟩
    · rw [List.length_append, List.take_add, ← hfirst, List.drop_drop, ← hposition, ← hcopied]
    · rw [hend, hposition, List.length_append, Nat.add_assoc]

theorem Copies.complete {stream last last' : VirtualStream} {content bytes : List UInt8}
    {attempt : Nat} {requested : UInt32} (h : Copies stream bytes last)
    (hexact : Exact stream.source content) (hrequested : requested ≠ 0)
    (hend : last.readImpl attempt false requested = .ok ([], last')) :
    bytes = content.drop stream.position.toNat := by
  obtain ⟨hlast, hbytes, hposition⟩ := h.exact hexact
  obtain ⟨hempty, -, -⟩ := VirtualStream.readImpl_exact hlast hend
  have hpositive : 0 < requested.toNat := by
    rw [Nat.pos_iff_ne_zero]
    exact fun hzero => hrequested (UInt32.toNat_inj.mp hzero)
  have hlength := congrArg List.length hempty
  rw [List.length_take, List.length_drop, List.length_nil] at hlength
  rw [hbytes]
  refine List.take_of_length_le ?_
  rw [List.length_drop]
  omega

variable {files : FileSystem} {lowercase : Text → Text} {toLowercase : Char → Text}
  {paths : List (List UInt16)} {tree : FileTreeSnapshot} {world world' : LocalWorld}
  {guid : Except HResult (List.Vector UInt8 16)} {ttl index : Nat} {offer : LocalFileOffer}
  {answers : PublishAnswers} {offered : SecureOfferedFile Nat} {snapshot : FileSnapshot}
  {entry : OfferManifestEntry} {manifest : OfferManifest} {object : VirtualFileDataObject}
  {lease : LeaseAnswers} {allocate : Nat → Except HResult Unit}

theorem offered_descriptors (hpublish : world.publishTree guid tree ttl = (world', .ok offer))
    (hoffered : fromLocalOffer toLowercase world' answers offer = .ok offered) :
    offered.storedManifest.entries.map (·.descriptor) = tree.entries.map (·.descriptor) := by
  obtain ⟨created, hcreate, -⟩ := LocalWorld.publishTree_cases hpublish
  obtain ⟨-, hentries, -⟩ := LocalWorld.createTree_cases hcreate
  rw [(SecureOfferedFile.newTree_given hoffered).descriptors, List.map_map, hentries]
  conv_rhs => rw [← offerEntries_snapshots world.sources.length tree.entries, List.map_map]
  rfl

theorem offered_source (hpublish : world.publishTree guid tree ttl = (world', .ok offer))
    (hoffered : fromLocalOffer toLowercase world' answers offer = .ok offered)
    (hids : (offered.storedManifest.entries.map (·.fileId)).Nodup)
    (hsnapshot : tree.entries[index]? = some snapshot)
    (hentry : offered.storedManifest.entries[index]? = some entry) :
    ∃ localEntry ∈ offer.entries, localEntry.snapshot = snapshot ∧
      ∀ s, localEntry.source = some s → offered.source entry.fileId = some s := by
  obtain ⟨created, hcreate, -⟩ := LocalWorld.publishTree_cases hpublish
  obtain ⟨-, hentries, -⟩ := LocalWorld.createTree_cases hcreate
  have hplace : (offer.entries.map (·.snapshot))[index]? = some snapshot := by
    rw [hentries, offerEntries_snapshots, hsnapshot]
  rw [List.getElem?_map, Option.map_eq_some_iff] at hplace
  obtain ⟨localEntry, hlocal, hsame⟩ := hplace
  refine ⟨localEntry, List.mem_of_getElem? hlocal, hsame, fun s hs => ?_⟩
  refine (SecureOfferedFile.newTree_given hoffered).sources hids index
    (localEntry.snapshot.descriptor, localEntry.source) entry ?_ hentry s hs
  rw [List.getElem?_map, hlocal, Option.map_some]

theorem captured_tree_arrives (hcapture : files.capture lowercase toLowercase paths = .ok tree)
    (hpublish : world.publishTree guid tree ttl = (world', .ok offer))
    (hoffered : fromLocalOffer toLowercase world' answers offer = .ok offered)
    (hids : (offered.storedManifest.entries.map (·.fileId)).Nodup) {checkedAt readAt : Nat}
    (hclock : checkedAt ≤ readAt) (hms : 1 ≤ asMillis (offered.expiresAt - readAt))
    (hlt : asMillis (offered.expiresAt - readAt) < 2 ^ 64) :
    ∃ response manifest, encodeManifestResponse offered checkedAt readAt [] = .ok response ∧
      decodeManifestResponse toLowercase response = .ok manifest ∧
      manifest.entries = offered.storedManifest.entries ∧
      ∀ (lease : LeaseAnswers) formats, lease.manifest = .ok manifest →
        lease.formats = .ok formats → oleSetClipboardWithRetry lease.setClipboard = .ok () →
          ∃ object, register toLowercase lease = .ok (object, manifest) ∧
            object.formats = formats ∧ (formats.ids.Nodup → ∀ allocate,
              (∀ size, allocate size = .ok ()) → ListsTree object allocate tree) := by
  have hdescriptors := offered_descriptors hpublish hoffered
  have hwell : WellFormedTree toLowercase
      (offered.storedManifest.entries.map (·.descriptor)) := by
    rw [hdescriptors]
    exact (validate_eq_ok_iff _).mp (capture_cases hcapture).2.1
  obtain ⟨response, manifest, hencode, hdecode, hentries⟩ :=
    decode_offered hwell hids hclock hms hlt
  refine ⟨response, manifest, hencode, hdecode, hentries,
    fun lease formats hmanifest hformats hset => ?_⟩
  have hregister := register_ok hmanifest (hentries ▸ hwell) hformats hset
  refine ⟨_, hregister, rfl, fun hdistinct allocate hallocate => ?_⟩
  obtain ⟨-, -, hobject⟩ := register_eq_ok hregister
  refine lists_tree (hobject.offers hdistinct hallocate lease.sizes) ?_
  rw [hobject.entries, remoteEntries_descriptors, hentries, hdescriptors]

def loopWorld : LocalWorld :=
  (LocalWorld.empty.publishTree (.ok (repeatedGuid 1)) loopTree 1000000).1

def loopOffer : LocalFileOffer :=
  ⟨repeatedGuid 1, 0, 1000000, offerEntries 0 loopTree.entries,
    privateOriginPrefix ++ (repeatedGuid 1).val⟩

theorem loop_published : LocalWorld.empty.publishTree (.ok (repeatedGuid 1)) loopTree 1000000 =
    (loopWorld, .ok loopOffer) := Prod.ext rfl rfl

def loopContent : List UInt8 := [1, 2, 3, 4, 5, 6, 7]

def loopPicture : FileSnapshot := loopSnapshot false ['C', ':', '\\', 'd', '\\', 'p'] ['d', '\\', 'p']

theorem loop_offered : ∃ offered, fromLocalOffer (fun c => [c.toLower]) loopWorld
      (soloAnswers 1 loopTree.entries) loopOffer = .ok offered ∧ offered.expiresAt = 1000000 ∧
    offered.storedManifest.entries.map (·.fileId) = [repeatedId 1, repeatedId 2, repeatedId 3] ∧
    offered.source (repeatedId 3) = some 0 ∧ offered.storedManifest.offerId = repeatedId 0 ∧
    offered.storedManifest.entries[2]? = some ⟨repeatedId 3, loopPicture.descriptor⟩ :=
  ⟨_, rfl, rfl, rfl, rfl, rfl, rfl⟩

theorem captured_tree_arrives_loop : ∃ lease manifest object,
    register (fun c => [c.toLower]) lease = .ok (object, manifest) ∧
      ListsTree object (fun _ => .ok ()) loopTree := by
  obtain ⟨offered, hoffered, hexpires, hids, -⟩ := loop_offered
  have hclock : asMillis (offered.expiresAt - 0) = 1 := by rw [hexpires]; rfl
  obtain ⟨-, manifest, -, -, -, hlease⟩ := captured_tree_arrives capture_loop loop_published
    hoffered (by rw [hids]; decide) (Nat.le_refl 0) (Nat.le_of_eq hclock.symm)
    (by rw [hclock]; decide)
  obtain ⟨object, hregister, hformats, hlists⟩ := hlease (retriedLease manifest) ⟨1, 2, 3, 4⟩ rfl rfl
    rfl
  exact ⟨_, manifest, object, hregister, hlists (by decide) _ fun _ => rfl⟩

theorem ReadsLater.of {labels : List LocalLabel} {s : Nat} {content : List UInt8}
    {moment : ReadMoment} {file : StableFileSource} (h : ReadsLater world s content moment)
    (hrun : Run LocalStep .empty labels world) (hfile : world.sources[s]? = some file) :
    moment.Of file.snapshot content := by
  obtain ⟨later, later', hlater, hsource, -⟩ := h.found
  obtain ⟨source', hsource', hevolves⟩ := (LocalWorld.run_evolves hlater).sources s file hfile
  cases hsource.symm.trans hsource'
  have hunaltered := h.unaltered
  rw [hevolves.snapshot] at hunaltered
  have hreached := (LocalWorld.sound_of_run (hrun.append hlater)).reached _
    (List.mem_of_getElem? hsource)
  exact ⟨hreached, hevolves.snapshot, hunaltered⟩

theorem offersContent_of_serves {labels : List LocalLabel} {server : ServerState}
    {contents : FileSnapshot → List UInt8} (hrun : Run LocalStep .empty labels world)
    (hpublish : world.publishTree guid tree ttl = (world', .ok offer))
    (hoffered : fromLocalOffer toLowercase world' answers offer = .ok offered)
    (hids : (offered.storedManifest.entries.map (·.fileId)).Nodup)
    (hserves : ServesOffer world' offered contents server)
    (hlength : (contents snapshot).length = snapshot.size.toNat)
    (hsnapshot : tree.entries[index]? = some snapshot) (hfile : snapshot.isDirectory = false)
    (hentry : offered.storedManifest.entries[index]? = some entry) :
    OffersContent server entry (contents snapshot) := by
  have hdescriptor : entry.descriptor = snapshot.descriptor := by
    have hplace := congrArg (fun descriptors => descriptors[index]?)
      (offered_descriptors hpublish hoffered)
    simpa only [List.getElem?_map, hsnapshot, hentry, Option.map_some, Option.some.injEq] using
      hplace
  obtain ⟨localEntry, hlocal, rfl, hsource⟩ :=
    offered_source hpublish hoffered hids hsnapshot hentry
  obtain ⟨created, hcreate, rfl⟩ := LocalWorld.publishTree_cases hpublish
  obtain ⟨-, hentries, -⟩ := LocalWorld.createTree_cases hcreate
  have hpublished : created.replaceCurrent (some offer) =
      world.apply (.publishTree guid tree ttl) := by
    rw [LocalWorld.apply, hpublish]
  have hbacks := (LocalWorld.createTree_backs hcreate).evolves
    (created.replaceCurrent_evolves (some offer))
  constructor
  · rw [SecureOfferedFile.manifestEntry, hserves.manifest]
    exact SecureOfferedFile.find_of_nodup hids (List.mem_of_getElem? hentry)
  · intro source hregistered
    obtain ⟨s, size, moments, file, hs, rfl, hfound, hmoments⟩ :=
      hserves.sources entry.fileId source hregistered
    obtain ⟨s', hs'⟩ : ∃ s', localEntry.source = some s' := by
      have hsome := offerEntries_directory (hentries ▸ hlocal)
      rw [hfile] at hsome
      exact Option.ne_none_iff_exists'.mp fun hnone => by simp [hnone] at hsome
    obtain ⟨file', hfound', hsame, -⟩ := hbacks localEntry hlocal s' hs'
    cases hs.symm.trans (hsource s' hs')
    cases hfound.symm.trans hfound'
    rw [← hsame]
    exact localSource_serves fun attempt => (hmoments attempt).of (hrun.snoc hpublished) hfound
  · rw [hdescriptor, size_descriptor, hlength]

theorem leased_stream (allocate : Nat → Except HResult Unit)
    (hregister : register toLowercase lease = .ok (object, manifest))
    (hdistinct : object.formats.ids.Nodup) (hentry : manifest.entries[index]? = some entry)
    (hregular : entry.descriptor.isDirectory = false) (attempt : Nat) :
    object.getData allocate attempt
      (some (formatEtc object.formats.contents (.ofNat index) tymedIstream)) =
        .ok (.istream entry.descriptor.fileName ⟨lease.factory entry attempt, 0⟩) := by
  obtain ⟨-, -, hobject⟩ := register_eq_ok hregister
  have hfound : object.entries[index]? = some (remoteEntry lease.factory entry) := by
    rw [hobject.getElem?_entries, hentry, Option.map_some]
  have hsource : (remoteEntry lease.factory entry).sourceFactory = some (lease.factory entry) :=
    remoteEntry_source.mpr ⟨hregular, rfl⟩
  obtain ⟨hnonnegative, hplace⟩ := lindex_place (entries_below hobject.valid hfound)
  have hserved : ServesContents object (formatEtc object.formats.contents (.ofNat index)
      tymedIstream) (remoteEntry lease.factory entry) (lease.factory entry) :=
    ⟨rfl, rfl, tymedIstream_self, hnonnegative, (congrArg (object.entries[·]?) hplace).trans hfound,
      hsource⟩
  refine bind_eq_ok.mpr ⟨(), (validate_contents hdistinct rfl).mpr ⟨_, _, hserved⟩, ?_⟩
  have hlen : (lease.factory entry attempt).len =
      (remoteEntry lease.factory entry).descriptor.size := by
    rw [remoteEntry_descriptor, lease.sizes]
  rw [mediumFor_contents hdistinct rfl, contentsMedium_ok hserved hlen, remoteEntry_descriptor]

theorem pasted_bytes_exact {labels : List LocalLabel} {server : ServerState}
    {contents : FileSnapshot → List UInt8} (hrun : Run LocalStep .empty labels world)
    (hpublish : world.publishTree guid tree ttl = (world', .ok offer))
    (hoffered : fromLocalOffer toLowercase world' answers offer = .ok offered)
    (hids : (offered.storedManifest.entries.map (·.fileId)).Nodup)
    (hserves : ServesOffer world' offered contents server)
    (hregister : register toLowercase lease = .ok (object, manifest))
    (hmanifest : manifest.entries = offered.storedManifest.entries)
    (hdistinct : object.formats.ids.Nodup) (hsnapshot : tree.entries[index]? = some snapshot)
    (hfile : snapshot.isDirectory = false)
    (hlength : (contents snapshot).length = snapshot.size.toNat) (now attempt : Nat)
    (trusted : CertificateFingerprint → Bool) :
    ∃ stream, object.getData allocate attempt
        (some (formatEtc object.formats.contents (.ofNat index) tymedIstream)) =
          .ok (.istream snapshot.fileName stream) ∧ stream.position = 0 ∧
      ((∀ entry, manifest.entries[index]? = some entry →
          AnswersRemotely server now trusted entry stream.source) →
        ∀ bytes last, Copies stream bytes last →
          bytes = (contents snapshot).take bytes.length ∧
          ∀ again requested last', requested ≠ 0 →
            last.readImpl again false requested = .ok ([], last') → bytes = contents snapshot) := by
  have hdescriptors := offered_descriptors hpublish hoffered
  obtain ⟨entry, hentry, hdescriptor⟩ : ∃ entry, manifest.entries[index]? = some entry ∧
      entry.descriptor = snapshot.descriptor := by
    have hplace := congrArg (fun descriptors => descriptors[index]?) hdescriptors
    simpa only [← hmanifest, List.getElem?_map, hsnapshot, Option.map_some,
      Option.map_eq_some_iff] using hplace
  have hregular : entry.descriptor.isDirectory = false := by
    rw [hdescriptor, isDirectory_descriptor, hfile]
  have hget := leased_stream allocate hregister hdistinct hentry hregular attempt
  rw [hdescriptor] at hget
  refine ⟨⟨lease.factory entry attempt, 0⟩, hget, rfl, fun hremote bytes last hcopies => ?_⟩
  have hcontent := offersContent_of_serves hrun hpublish hoffered hids hserves hlength hsnapshot
    hfile (hmanifest ▸ hentry)
  have hexact := (hremote entry hentry).exact hcontent
  have hwhole : (contents snapshot).drop (0 : UInt64).toNat = contents snapshot := List.drop_zero
  obtain ⟨-, hbytes, -⟩ := hcopies.exact hexact
  refine ⟨hwhole ▸ hbytes, fun again requested last' hrequested hend => ?_⟩
  exact (hcopies.complete hexact hrequested hend).trans hwhole

theorem diskOf_unaltered {files : List (FileSnapshot × List UInt8)} {content : List UInt8}
    (hlength : content.length = snapshot.size.toNat)
    (hfile : files.find? (·.1.path = snapshot.path) = some (snapshot, content)) :
    (diskOf files).Unaltered snapshot content := by
  refine ⟨hlength, fun file information offset length read hpath _ _ hread => ?_⟩
  have hanswer : ((diskOf files).answers .reading file).seekRead offset length =
      .ok ((content.drop offset).take length) := by
    simp only [diskOf, hpath, hfile]
  cases hanswer.symm.trans hread
  rw [List.length_take, ← List.take_eq_take_min]

def loopMoment : ReadMoment :=
  ⟨.new loopPicture 1000000, diskOf [(loopPicture, loopContent)], 0⟩

def loopServer (offered : SecureOfferedFile Nat) : ServerState :=
  { soloServer with
    offered := ⟨offered.storedManifest,
      AList.insert (repeatedId 3) (localSource 7 fun _ => loopMoment) ∅, offered.expiresAt⟩ }

def loopEntry : OfferManifestEntry := ⟨repeatedId 3, loopPicture.descriptor⟩

def servingLease (manifest : OfferManifest) : LeaseAnswers :=
  { retriedLease manifest with
    factory := fun entry _ => firstRead entry.descriptor.size loopContent
    sizes := fun _ _ => rfl }

theorem loop_hosts {offered : SecureOfferedFile Nat}
    (hid : offered.storedManifest.offerId = repeatedId 0) (halive : 0 < offered.expiresAt)
    (hentry : offered.manifestEntry (repeatedId 3) = some loopEntry) :
    Hosts (loopServer offered) loopEntry loopContent.length loopContent where
  authorizedPeer := rfl
  trustStore := rfl
  offerId := hid
  alive := halive
  transferTtl := rfl
  described := hentry
  source := ⟨_, filled 7 loopContent, AList.lookup_insert (s := ∅), rfl, rfl⟩
  fits := by decide
  nonempty := by decide

theorem loop_serves {offered : SecureOfferedFile Nat}
    (hsource : offered.source (repeatedId 3) = some 0) :
    ServesOffer loopWorld offered (fun _ => loopContent) (loopServer offered) where
  manifest := rfl
  sources fileId source h := by
    by_cases hid : fileId = repeatedId 3
    · subst hid
      cases (AList.lookup_insert _).symm.trans h
      refine ⟨0, 7, _, .new loopPicture 1000000, hsource, rfl, rfl, fun _ => ⟨?_, ?_⟩⟩
      · exact ⟨[], loopWorld, .nil, rfl, rfl⟩
      · exact diskOf_unaltered rfl (by decide)
    · cases (AList.lookup_insert_ne hid).symm.trans h

theorem loop_distinct : (⟨1, 2, 3, 4⟩ : ClipboardFormats).ids.Nodup := by decide

theorem pasted_bytes_exact_loop : ∃ server lease object manifest stream bytes last,
    register (fun c => [c.toLower]) lease = .ok (object, manifest) ∧
    object.getData (fun _ => .ok ()) 0 (some (formatEtc 2 2 tymedIstream)) =
      .ok (.istream ['d', '\\', 'p'] stream) ∧
    AnswersRemotely server 0 (fun _ => true) loopEntry stream.source ∧
    Copies stream bytes last ∧ bytes.length = 7 ∧ bytes = loopContent.take bytes.length := by
  obtain ⟨offered, hoffered, hexpires, hids, hsource, hid, hentry⟩ := loop_offered
  have hwell : WellFormedTree (fun c => [c.toLower])
      (offered.storedManifest.entries.map (·.descriptor)) := by
    rw [offered_descriptors loop_published hoffered]
    exact (validate_eq_ok_iff _).mp (capture_cases capture_loop).2.1
  have hregister := @register_ok _ _ ⟨1, 2, 3, 4⟩ (servingLease offered.storedManifest) rfl hwell rfl
    rfl
  have hrun : Run LocalStep .empty [] .empty := .nil
  have hstream := leased_stream (fun _ => .ok ()) hregister loop_distinct hentry rfl 0
  have hanswers := (loop_hosts hid (by rw [hexpires]; decide) (by
    rw [SecureOfferedFile.manifestEntry]
    exact SecureOfferedFile.find_of_nodup (by rw [hids]; decide)
      (List.mem_of_getElem? hentry))).answers 7
  obtain ⟨last, hread⟩ := firstRead_read 7 (show loopContent ≠ [] by decide) (by decide)
  have hcopied : Copies ⟨firstRead 7 loopContent, 0⟩ (loopContent ++ []) last := .read hread .nil
  obtain ⟨stream, hget, -, hcopies⟩ := @pasted_bytes_exact _ _ _ _ _ _ _ _ _ _ _ _ _ _
    (fun _ => .ok ()) _ _ _ hrun loop_published hoffered (by rw [hids]; decide)
    (loop_serves hsource) hregister rfl loop_distinct
    (show loopTree.entries[2]? = some loopPicture from rfl) rfl rfl 0 0 (fun _ => true)
  obtain ⟨-, rfl⟩ := StgMedium.istream.inj (Except.ok.inj (hstream.symm.trans hget))
  have hbytes := hcopies (fun entry hother => by
    cases hentry.symm.trans hother
    exact hanswers) _ _ hcopied
  exact ⟨_, _, _, _, _, _, last, hregister, hstream, hanswers, hcopied, rfl, hbytes.1⟩

end ClipFerry.Product
