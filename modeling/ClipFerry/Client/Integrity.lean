import ClipFerry.Client.RoundTrip
import ClipFerry.Client.WireAgreement
import ClipFerry.Server.Capacity
import ClipFerry.Stream.VirtualStream

namespace ClipFerry.Client

open ClipFerry.Stream Protocol Server Transition

variable {κ : Type} {server : ServerState} {entry : OfferManifestEntry} {content bytes : List UInt8}
  {offset : UInt64} {length : Nat}

def Portion (content : List UInt8) (offset : UInt64) (length : Nat) (bytes : List UInt8) : Prop :=
  bytes.length ≤ min length maxSecureRangeBytes ∧
    bytes = (content.drop offset.toNat).take bytes.length

theorem Portion.nil : Portion content offset length [] := ⟨Nat.zero_le _, rfl⟩

theorem Portion.fits (h : Portion content offset length bytes) :
    bytes.length ≤ content.length - offset.toNat := by
  have hlength := congrArg List.length h.2
  rw [List.length_take, List.length_drop] at hlength
  omega

namespace SourcePc

variable {pc pc' : SourcePc κ} {source source' : RemoteSource κ}

def ReadsAt (content : List UInt8) (offset : UInt64) (length : Nat) : SourcePc κ → Prop
  | .start task => task = .readAt offset length
  | .gateCancelled o l | .gatePaused o l => o = offset ∧ l = length
  | .lockTransfer purpose | .beginning purpose | .checkCancelled purpose _
  | .allocateCancel purpose _ | .sendCancel purpose _ _ | .checkPaused purpose _
  | .allocatePause purpose _ | .sendPause purpose _ _ =>
    purpose = .read offset (min length maxSecureRangeBytes)
  | .reading _ o requested | .napping _ o requested =>
    o = offset ∧ requested = min length maxSecureRangeBytes
  | .received _ o bytes => o = offset ∧ Portion content offset length bytes
  | .allocateComplete _ | .sendComplete _ _ => content.length ≤ offset.toNat
  | .unmarkComplete _ | .returned (.error _) => True
  | .returned (.ok bytes) => 0 < length →
    Portion content offset length bytes ∧ (bytes = [] ↔ content.length ≤ offset.toNat)
  | _ => False

theorem readsAt_fail (error : IoError) (requested : Nat) :
    (fail error (.read offset requested) : SourcePc κ).ReadsAt content offset length := trivial

theorem readsAt_proceed (credentials : κ) :
    (proceed credentials (.read offset (min length maxSecureRangeBytes))).ReadsAt content offset
      length := ⟨rfl, rfl⟩

theorem advance_reads (hsize : source.size.toNat = content.length) {paused cancelled : Bool}
    (hreads : pc.ReadsAt content offset length)
    (h : pc.advance paused cancelled source = some (source', pc')) :
    pc'.ReadsAt content offset length := by
  cases pc with
  | start task =>
    cases hreads
    simp only [advance, Option.some.injEq, Prod.mk.injEq] at h
    obtain ⟨-, rfl⟩ := h
    split
    · rename_i hzero
      exact fun hpos => absurd hzero (Nat.ne_of_gt hpos)
    · exact ⟨rfl, rfl⟩
  | gateCancelled o l =>
    obtain ⟨rfl, rfl⟩ := hreads
    simp only [advance, Option.some.injEq, Prod.mk.injEq] at h
    obtain ⟨-, rfl⟩ := h
    split
    · exact trivial
    · exact ⟨rfl, rfl⟩
  | gatePaused o l =>
    obtain ⟨rfl, rfl⟩ := hreads
    simp only [advance] at h
    split at h <;> cases h
    · exact ⟨rfl, rfl⟩
    · exact rfl
  | lockTransfer purpose =>
    cases hreads
    simp only [advance] at h
    split at h
    · cases h
    · split at h <;> cases h
      · exact readsAt_proceed _
      · exact rfl
  | checkCancelled purpose c | checkPaused purpose c =>
    cases hreads
    simp only [advance, Option.some.injEq, Prod.mk.injEq] at h
    obtain ⟨-, rfl⟩ := h
    split <;> first | exact rfl | exact readsAt_proceed _
  | allocateCancel purpose c | allocatePause purpose c =>
    cases h
    exact hreads
  | napping c o requested =>
    cases h
    exact hreads
  | received c o bytes =>
    obtain ⟨rfl, hportion⟩ := hreads
    have hend : source.size ≤ o ↔ content.length ≤ o.toNat := by
      rw [UInt64.le_iff_toNat_le, hsize]
    simp only [advance] at h
    split at h
    · cases h
      exact trivial
    · rename_i hmore
      split at h <;> cases h
      · rename_i hdone
        exact hend.mp hdone.2.1
      · refine fun _ => ⟨hportion, fun hempty => ?_, fun hover => ?_⟩
        · rw [← hend, ← UInt64.not_lt]
          exact fun hlt => hmore ⟨hempty, hlt⟩
        · have hfits := hportion.fits
          exact List.eq_nil_of_length_eq_zero (by omega)
  | allocateComplete c =>
    cases h
    exact hreads
  | unmarkComplete error =>
    cases h
    exact trivial
  | allocate | markComplete | allocateLocal => exact hreads.elim
  | beginning | sendCancel | sendPause | reading | sendComplete | controlling | asking | returned
  | done => cases h

theorem answer_reads {reply : Reply κ} (hreads : pc.ReadsAt content offset length)
    (hrange : ∀ credentials status bytes,
      pc = .reading credentials offset (min length maxSecureRangeBytes) →
      reply = .range status bytes → Portion content offset length bytes)
    (h : pc.answer source reply = some (source', pc')) : pc'.ReadsAt content offset length := by
  unfold answer at h
  split at h <;> cases h
  · exact hreads
  · cases hreads
    exact readsAt_fail _ _
  · cases hreads
    exact readsAt_fail _ _
  · cases hreads
    exact readsAt_fail _ _
  · cases hreads
    exact readsAt_proceed _
  · cases hreads
    exact readsAt_fail _ _
  · obtain ⟨rfl, rfl⟩ := hreads
    split
    · exact ⟨rfl, rfl⟩
    · exact ⟨rfl, hrange _ _ _ rfl rfl⟩
  · exact trivial
  · exact fun _ => ⟨.nil, iff_of_true rfl hreads⟩
  · exact trivial
  all_goals exact hreads.elim

end SourcePc

/-! An offered file whose source reads one fixed content of the size that the offer states. -/

structure OffersContent (server : ServerState) (entry : OfferManifestEntry)
    (content : List UInt8) : Prop where
  described : server.offered.manifestEntry entry.fileId = some entry
  served (source : ReadAtSource) : server.offered.source entry.fileId = some source →
    source.Serves content
  length : content.length = entry.descriptor.size.toNat

def RemoteSource.Reads (entry : OfferManifestEntry) (source : RemoteSource κ) : Prop :=
  source.fileId = entry.fileId ∧ source.size = entry.descriptor.size

theorem portion_of_source (hoffers : OffersContent server entry content) {read : Nat}
    {source : ReadAtSource} {found : OfferManifestEntry}
    (h : FromSource server entry.fileId offset.toNat (min length maxSecureRangeBytes) read bytes
      source found) : Portion content offset length bytes := by
  obtain ⟨hregistered, hdescribed, attempt, buffer, hread, rfl⟩ := h
  cases hdescribed.symm.trans hoffers.described
  have hbuffer := buffer.property
  rcases Nat.eq_zero_or_pos (min (entry.descriptor.size.toNat - offset.toNat)
    (min length maxSecureRangeBytes)) with hzero | hpos
  · have hnil : buffer.val.take read = [] :=
      List.eq_nil_of_length_eq_zero (by rw [List.length_take]; omega)
    rw [hnil]
    exact .nil
  · obtain ⟨hle, htake⟩ := hoffers.served _ hregistered _ _ _ _ _ hpos hread
    have hlength : (buffer.val.take read).length = read := by
      rw [List.length_take]
      omega
    refine ⟨?_, by rw [hlength, htake]⟩
    rw [hlength]
    omega

theorem Thread.setFocus_source {thread : Thread κ} {s : Nat} {task : SourceTask}
    {pc' q : SourcePc κ} (h : thread.setFocus pc' = .source s task q) :
    ∃ pc, thread = .source s task pc ∧ q = pc' := by
  unfold setFocus at h
  split at h <;> cases h
  exact ⟨_, rfl, rfl⟩

namespace ClientWorld

variable {client client' : ClientWorld TransferCredentials} {t s : Nat}

structure Sound (entry : OfferManifestEntry) (content : List UInt8)
    (client : ClientWorld TransferCredentials) : Prop where
  named {s : Nat} {source : RemoteSource TransferCredentials} {c : TransferCredentials} :
    client.registry.sources[s]? = some source → source.transfer = some c →
    c.fileId = source.fileId
  reads {t s : Nat} {offset : UInt64} {length : Nat} {pc : SourcePc TransferCredentials} :
    client.threads[t]? = some (.source s (.readAt offset length) pc) →
    pc = .start (.readAt offset length) ∨ client.Holds s fun source =>
      source.Reads entry → pc.ReadsAt content offset length

theorem Sound.empty : (ClientWorld.empty : ClientWorld TransferCredentials).Sound entry content :=
  ⟨nofun, nofun⟩

theorem Sound.evolves (hoffers : OffersContent server entry content)
    {thread : Thread TransferCredentials} {pc pc' : SourcePc TransferCredentials}
    {source source' : RemoteSource TransferCredentials} (hsound : client.Sound entry content)
    (hthread : client.threads[t]? = some thread) (hfocus : thread.focus = some (s, pc))
    (hsource : client.registry.sources[s]? = some source)
    (hkept : source'.fileId = source.fileId ∧ source'.size = source.size)
    (hnamed : ∀ c, source'.transfer = some c → c.fileId = source'.fileId)
    (hreads : source.Reads entry → source.size.toNat = content.length →
      ∀ {offset length}, pc.ReadsAt content offset length → pc'.ReadsAt content offset length) :
    (⟨client.registry.setSource s source', client.threads.set t (thread.setFocus pc')⟩ :
      ClientWorld TransferCredentials).Sound entry content := by
  have hback : source'.Reads entry → source.Reads entry :=
    fun h => ⟨hkept.1.symm.trans h.1, hkept.2.symm.trans h.2⟩
  constructor
  · intro r other c hother htransfer
    rcases Position.set_cases hother with ⟨-, rfl⟩ | ⟨-, hold⟩
    · exact hnamed c htransfer
    · exact hsound.named hold htransfer
  · intro u r offset length q hu
    rcases Position.set_cases hu with ⟨rfl, hnew⟩ | ⟨-, hold⟩
    · obtain ⟨pc₀, rfl, rfl⟩ := Thread.setFocus_source hnew.symm
      cases hfocus
      refine .inr ⟨source', by rw [getElem?_setSource hsource, if_pos rfl], fun h => ?_⟩
      have hsize : source.size.toNat = content.length := by
        rw [(hback h).2, hoffers.length]
      refine hreads (hback h) hsize ?_
      rcases hsound.reads hthread with rfl | hknown
      · exact rfl
      · exact hknown.elim hsource (hback h)
    · rcases hsound.reads hold with hstart | hknown
      · exact .inl hstart
      · refine .inr (hknown.setSource hsource ?_)
        rintro rfl hknown h
        exact hknown (hback h)

theorem Sound.step (hoffers : OffersContent server entry content)
    {l : ClientLabel TransferCredentials} (hc : client.Consistent)
    (hsound : client.Sound entry content) (h : ClientStep client l client')
    (hfaithful : ∀ {t reply}, l = .answer t reply → ∀ {s pc rpc source}, client.At t s pc →
      pc.rpc s = some rpc → client.registry.sources[s]? = some source →
      Faithful server source rpc reply) : client'.Sound entry content := by
  cases h with
  | @spawn thread hspawned =>
    refine ⟨hsound.named, fun {t s offset length pc} ht => ?_⟩
    rcases Position.concat_cases ht with hold | ⟨-, rfl⟩
    · exact hsound.reads hold
    · exact .inl hspawned
  | remember connection manifest other =>
    constructor
    · intro r source c hsource htransfer
      rcases List.mem_append.mp (List.mem_of_getElem? hsource) with hold | hnew
      · obtain ⟨r', hr'⟩ := List.getElem?_of_mem hold
        exact hsound.named hr' htransfer
      · cases List.mem_singleton.mp hnew
        cases htransfer
    · intro t r offset length pc ht
      rcases hsound.reads ht with hstart | ⟨source, hsource, hknown⟩
      · exact .inl hstart
      · have hlt := (List.getElem?_eq_some_iff.mp hsource).1
        exact .inr ⟨source, (List.getElem?_append_left hlt).trans hsource, hknown⟩
  | @source t s thread pc pc' source source' hthread hfocus hsource h =>
    obtain ⟨hfile, hsize, htransfer⟩ := SourcePc.advance_kept h
    refine hsound.evolves hoffers hthread hfocus hsource ⟨hfile, hsize⟩ ?_ ?_
    · intro c hc
      rw [hfile]
      exact hsound.named hsource (htransfer.symm.trans hc)
    · exact fun _ hcontent {_ _} hreads => SourcePc.advance_reads hcontent hreads h
  | @group t op pc pc' registry hthread hfree h =>
    have hsources := (GroupPc.advance_launching h).1
    constructor
    · intro r source c hsource htransfer
      rw [hsources] at hsource
      exact hsound.named hsource htransfer
    · intro u r offset length q hu
      rcases Position.set_cases hu with ⟨-, hnew⟩ | ⟨-, hold⟩
      · cases hnew
      · rcases hsound.reads hold with hstart | ⟨source, hsource, hknown⟩
        · exact .inl hstart
        · exact .inr ⟨source, by rw [hsources, hsource], hknown⟩
  | @answer t s thread pc pc' source source' reply hthread hfocus hsource h =>
    obtain ⟨hfile, hsize, htransfer⟩ := SourcePc.answer_kept h
    have hat : client.At t s pc := ⟨thread, hthread, hfocus⟩
    refine hsound.evolves hoffers hthread hfocus hsource ⟨hfile, hsize⟩ ?_ ?_
    · intro c hc
      rw [hfile]
      rcases htransfer with hsame | ⟨began, rfl, hbegins, hnew⟩
      · exact hsound.named hsource (hsame.symm.trans hc)
      · cases hnew.symm.trans hc
        cases pc with
        | beginning purpose => exact hfaithful rfl hat rfl hsource
        | _ => cases hbegins
    · intro hoffered _ offset length hreads
      refine SourcePc.answer_reads hreads ?_ h
      rintro c status bytes rfl rfl
      rcases hfaithful rfl hat rfl hsource with ⟨-, rfl⟩ | ⟨-, read, file, found, hfrom⟩
      · exact .nil
      · have hheld := (hc.carried hat rfl).elim hsource
        rw [hsound.named hsource hheld, hoffered.1] at hfrom
        exact portion_of_source hoffers hfrom

end ClientWorld

variable {system system' : System} {now : Nat} {trusted : CertificateFingerprint → Bool}
  {ls : List SystemLabel}

theorem SystemStep.client_cases {l : SystemLabel} (h : SystemStep server system l system') :
    system'.client = system.client ∨ ∃ cl, ClientStep system.client cl system'.client ∧
      ∀ t reply, cl = .answer t reply → ∃ rpc source outcome, system.Asks t rpc source ∧
        (system.exchanges t).outcome = some outcome ∧ reply = rpc.reply source outcome := by
  cases h with
  | client hl h =>
    refine .inr ⟨_, h, ?_⟩
    rintro t reply rfl
    cases hl
  | answer hasks houtcome h =>
    refine .inr ⟨_, h, ?_⟩
    intro t reply hlabel
    cases hlabel
    exact ⟨_, _, _, hasks, houtcome, rfl⟩
  | world | link | issue | notIssued | giveUp | lock | connect | send | receive | lose | retry =>
    exact .inl rfl

theorem sound_of_run (hoffers : OffersContent server entry content)
    (h : Run (SystemStep server) (.start now trusted) ls system) :
    system.client.Consistent ∧ system.client.Sound entry content ∧ ∀ t, Issued system t := by
  induction h with
  | nil => exact ⟨.empty, .empty, fun _ => .inl rfl⟩
  | snoc run last ih =>
    obtain ⟨hconsistent, hsound, hissued⟩ := ih
    refine ⟨?_, ?_, Issued.step hissued last⟩
    · rcases last.client_cases with hsame | ⟨cl, hclient, -⟩
      · rwa [hsame]
      · exact hconsistent.step hclient
    · rcases last.client_cases with hsame | ⟨cl, hclient, hanswers⟩
      · rwa [hsame]
      · refine hsound.step hoffers hconsistent hclient ?_
        rintro t reply rfl s pc rpc source hat hrpc hsource
        obtain ⟨rpc', source', outcome, hasks, houtcome, rfl⟩ := hanswers t reply rfl
        have hreply := faithful_reply (wired_of_run run).2 (hissued t) hasks houtcome
        obtain ⟨s', pc', hat', hrpc', hsource'⟩ := hasks
        obtain ⟨rfl, rfl⟩ := hat.unique hat'
        cases hrpc.symm.trans hrpc'
        cases hsource.symm.trans hsource'
        exact hreply

def Returned (entry : OfferManifestEntry) (system : System) (offset : UInt64) (length : Nat)
    (bytes : List UInt8) : Prop :=
  ∃ t s : Nat, system.client.threads[t]? =
      some (.source s (.readAt offset length) (.returned (.ok bytes))) ∧
    system.client.Holds s (·.Reads entry)

theorem returned_portion (hoffers : OffersContent server entry content)
    (h : Run (SystemStep server) (.start now trusted) ls system) (hpos : 0 < length)
    (hreturned : Returned entry system offset length bytes) :
    Portion content offset length bytes ∧ (bytes = [] ↔ content.length ≤ offset.toNat) := by
  obtain ⟨t, s, hthread, source, hsource, hreads⟩ := hreturned
  obtain ⟨-, hsound, -⟩ := sound_of_run hoffers h
  rcases hsound.reads hthread with hstart | hknown
  · cases hstart
  · exact hknown.elim hsource hreads hpos

def AnswersRemotely (server : ServerState) (now : Nat) (trusted : CertificateFingerprint → Bool)
    (entry : OfferManifestEntry) (source : ReadAtSource) : Prop :=
  ∀ attempt (offset : UInt64) length read buffer, 0 < length →
    source.readAt attempt offset.toNat length = .ok (read, buffer) →
    ∃ ls system bytes, Run (SystemStep server) (.start now trusted) ls system ∧
      Returned entry system offset length bytes ∧ bytes.length = read ∧
      buffer.val.take read = bytes

theorem AnswersRemotely.exact (hoffers : OffersContent server entry content)
    {source : ReadAtSource} (h : AnswersRemotely server now trusted entry source) :
    Exact source content := by
  intro attempt offset length read buffer hpos hread
  obtain ⟨ls, system, bytes, hrun, hreturned, rfl, hbuffer⟩ := h _ _ _ _ _ hpos hread
  obtain ⟨⟨hle, hbytes⟩, hempty⟩ := returned_portion hoffers hrun hpos hreturned
  refine ⟨by omega, hbuffer.trans hbytes, ?_⟩
  rw [← hempty, List.length_eq_zero_iff]

theorem remote_read_integrity (hoffers : OffersContent server entry content) (now : Nat)
    (trusted : CertificateFingerprint → Bool) :
    (∀ ls system (offset : UInt64) length bytes,
      Run (SystemStep server) (.start now trusted) ls system →
      0 < length → Returned entry system offset length bytes →
      bytes.length ≤ min length (min maxSecureRangeBytes
        (entry.descriptor.size.toNat - min offset.toNat entry.descriptor.size.toNat)) ∧
      bytes = (content.drop offset.toNat).take bytes.length ∧
      (bytes.length = 0 ↔ entry.descriptor.size ≤ offset)) ∧
    (∀ (stream : VirtualStream) attempt destinationNull requested bytes stream',
      AnswersRemotely server now trusted entry stream.source →
      stream.readImpl attempt destinationNull requested = .ok (bytes, stream') →
      bytes.length = min requested.toNat (entry.descriptor.size.toNat
        - min stream.position.toNat entry.descriptor.size.toNat) ∧
      bytes = (content.drop stream.position.toNat).take bytes.length) := by
  have hsize := hoffers.length
  constructor
  · intro ls system offset length bytes hrun hpos hreturned
    obtain ⟨hportion, hempty⟩ := returned_portion hoffers hrun hpos hreturned
    have hfits := hportion.fits
    refine ⟨by have hle := hportion.1; omega, hportion.2, ?_⟩
    rw [List.length_eq_zero_iff, hempty, hsize, UInt64.le_iff_toNat_le]
  · intro stream attempt destinationNull requested bytes stream' hremote hread
    obtain ⟨rfl, -⟩ := VirtualStream.readImpl_exact (hremote.exact hoffers) hread
    rw [List.length_take, List.length_drop]
    refine ⟨by omega, ?_⟩
    rw [← List.length_drop, ← List.take_eq_take_min]

structure Hosts (server : ServerState) (entry : OfferManifestEntry) (requested : Nat)
    (bytes : List UInt8) : Prop where
  authorizedPeer : server.authorizedPeer = soloPeer
  trustStore : server.trustStore = false
  offerId : server.offered.storedManifest.offerId = repeatedId 0
  alive : 0 < server.offered.expiresAt
  transferTtl : server.transferTtl = fromMillis 1000
  described : server.offered.manifestEntry entry.fileId = some entry
  source : ∃ source buffer, server.offered.source entry.fileId = some source ∧
    source.readAt 0 0 (min entry.descriptor.size.toNat requested) = .ok (bytes.length, buffer) ∧
    buffer.val.take bytes.length = bytes
  fits : bytes.length ≤ requested ∧ requested ≤ maxSecureRangeBytes
  nonempty : bytes ≠ []

def hostedSession (fileId : ProtocolId) : TransferSession := { soloSession with fileId := fileId }

def hostedReader (entry : OfferManifestEntry) (transfer : Option TransferCredentials)
    (readCalls : Nat) : RemoteSource TransferCredentials :=
  { (RemoteSource.new 0 ⟨repeatedId 0, [entry], 0⟩ entry : RemoteSource TransferCredentials) with
    transfer := transfer
    readCalls := readCalls }

def hostedReading (entry : OfferManifestEntry) (requested : Nat)
    (transfer : Option TransferCredentials) (pc : SourcePc TransferCredentials) :
    ClientWorld TransferCredentials :=
  ⟨⟨[hostedReader entry transfer 1], [0], false, false⟩, [.source 0 (.readAt 0 requested) pc]⟩

def hostedBegin (fileId : ProtocolId) : Request :=
  .beginTransfer soloPeer (repeatedId 0) fileId (repeatedSecret 5)

def hostedBegun (fileId : ProtocolId) : World where
  shared := (Shared.empty.run (.prune 0)).run (.create (repeatedSecret 5) (hostedSession fileId))
  now := 0
  trusted _ := true
  calls := [⟨.connect soloPeer, .done (.ok .connected)⟩,
    ⟨hostedBegin fileId, .done (.ok (.began ((hostedSession fileId).credentials 0)))⟩]

def hostedFetch (fileId : ProtocolId) (requested : Nat) : Request :=
  .readRange soloPeer { (hostedSession fileId).credentials 0 with expiresAtMillis := 0 } 0 requested

def hostedFetching (fileId : ProtocolId) (requested : Nat) (shared : Shared) (pc : Pc) : World where
  shared := shared
  now := 0
  trusted _ := true
  calls := (connected (hostedBegun fileId) soloPeer).calls ++ [⟨hostedFetch fileId requested, pc⟩]

def firstRead (size : UInt64) (bytes : List UInt8) : ReadAtSource where
  len := size
  readAt attempt offset length :=
    if offset = 0 ∧ length = bytes.length then (memorySource bytes).readAt attempt offset length
    else .error .readFault

namespace Hosts

variable {requested : Nat}

theorem allowed (h : Hosts server entry requested bytes) (view : View) :
    server.peerIsAllowed view soloPeer = true := by
  simp [ServerState.peerIsAllowed, h.authorizedPeer, h.trustStore]

theorem ensured (h : Hosts server entry requested bytes) (view : View) (next : Pc) :
    server.ensurePeerAllowed view soloPeer next = ([], next) := by
  rw [ServerState.ensurePeerAllowed, if_neg (by rw [h.allowed]; exact Bool.noConfusion)]

theorem sampled (h : Hosts server entry requested bytes) {view : View} (hnow : view.now = 0) :
    server.beginSample view (repeatedId 0) entry.fileId = ([], .admission 0) := by
  obtain ⟨source, -, hsource, -⟩ := h.source
  have halive : ¬server.offered.expiresAt ≤ view.now := by
    rw [hnow]
    exact Nat.not_le.mpr h.alive
  rw [ServerState.beginSample, if_neg (by simp [h.offerId, halive]), if_neg (by simp [hsource]),
    hnow]

theorem created (h : Hosts server entry requested bytes) :
    server.beginCreate ⟨Shared.empty.run (.prune 0), 0, fun _ => true⟩ soloPeer (repeatedId 0)
      entry.fileId (repeatedSecret 5) 0 0 soloDraw =
        ([.create (repeatedSecret 5) (hostedSession entry.fileId)],
          .done (.ok (.began ((hostedSession entry.fileId).credentials 0)))) := by
  have hsame : server.beginCreate ⟨Shared.empty.run (.prune 0), 0, fun _ => true⟩ soloPeer
      (repeatedId 0) entry.fileId (repeatedSecret 5) 0 0 soloDraw =
      soloServer.beginCreate ⟨Shared.empty.run (.prune 0), 0, fun _ => true⟩ soloPeer
        (repeatedId 0) entry.fileId (repeatedSecret 5) 0 0 soloDraw := by
    simp only [ServerState.beginCreate, h.transferTtl, soloServer]
  exact hsame.trans rfl

theorem fetched (h : Hosts server entry requested bytes) :
    server.readRangeFetch entry.fileId 0 0 requested 0 = ([], .finish 0 bytes.length bytes) := by
  obtain ⟨source, buffer, hsource, hread, hbytes⟩ := h.source
  simp only [ServerState.readRangeFetch, hsource, h.described, Nat.sub_zero, hread, hbytes]

theorem finished (h : Hosts server entry requested bytes) {view : View} {session : TransferSession}
    (hlive : view.now < session.expiresAt) (hstate : session.inner.state ≠ .cancelled) :
    server.readRangeFinish view soloPeer session 0 0 bytes.length bytes =
      ([.serve 0 0 bytes.length],
        .done (.ok (.range (session.inner.serve 0 bytes.length).status bytes))) := by
  rw [ServerState.readRangeFinish, if_neg (by rw [h.allowed]; exact Bool.noConfusion),
    if_neg (Nat.not_le.mpr hlive), if_neg hstate]

theorem begun_run (h : Hosts server entry requested bytes) : Run (Step server)
    { connected soloStart soloPeer with
      calls := (connected soloStart soloPeer).calls ++
        [⟨hostedBegin entry.fileId, (hostedBegin entry.fileId).entry⟩] }
    [.turn 1 [], .turn 1 [], .turn 1 [.prune 0],
      .turn 1 [.create (repeatedSecret 5) (hostedSession entry.fileId)]]
    (hostedBegun entry.fileId) := by
  have hrun := (@Run.nil _ _ (Step server) { connected soloStart soloPeer with
      calls := (connected soloStart soloPeer).calls ++
        [⟨hostedBegin entry.fileId, (hostedBegin entry.fileId).entry⟩] })
    |>.snoc (.turn (k := 1) rfl (.authorize (h.ensured _ _)))
    |>.snoc (.turn (k := 1) rfl (.sample (h.sampled rfl)))
    |>.snoc (.turn (k := 1) rfl (.admission (World.serverLockFree_of_all rfl) rfl))
    |>.snoc (.turn (k := 1) rfl (.create soloDraw h.created))
  exact hrun

theorem authenticated (fileId : ProtocolId) (requested : Nat) :
    ServerState.authenticatedSession ⟨(hostedBegun fileId).shared, 0, fun _ => true⟩
      (hostedFetch fileId requested)
      { (hostedSession fileId).credentials 0 with expiresAtMillis := 0 } =
        ([.beginRead], .gate 0) := by
  have htransfer : (hostedBegun fileId).shared.transfers.get
      ((hostedSession fileId).credentials 0).transferId = some 0 := rfl
  have hsession : (hostedBegun fileId).shared.sessions[0]? = some (hostedSession fileId) := rfl
  have hmatches : (hostedSession fileId).matchesCredentials (hostedFetch fileId requested).peer
      { (hostedSession fileId).credentials 0 with expiresAtMillis := 0 } ≠ false := by
    simp [TransferSession.matchesCredentials, TransferSession.credentials, hostedFetch,
      Request.peer, hostedSession, soloSession]
  have hlive : ¬(hostedSession fileId).expiresAt ≤ 0 :=
    Nat.not_le.mpr (show 0 < fromMillis 1000 by decide)
  simp only [ServerState.authenticatedSession, htransfer, hsession, if_neg hlive, if_neg hmatches]
  rfl

theorem turned {shared : Shared} {pc pc' : Pc} {us : List Update}
    (h : Turn server ⟨shared, 0, fun _ => true⟩
      (hostedFetching entry.fileId requested shared pc).ServerLockFree
      (hostedFetch entry.fileId requested) pc us pc') :
    Step server (hostedFetching entry.fileId requested shared pc) (.turn 3 us)
      (hostedFetching entry.fileId requested (us.foldl Shared.run shared) pc') :=
  @Step.turn server (hostedFetching entry.fileId requested shared pc) 3
    ⟨hostedFetch entry.fileId requested, pc⟩ us pc' rfl h

theorem fetched_run (h : Hosts server entry requested bytes) : ∃ shared, Run (Step server)
    (hostedFetching entry.fileId requested (hostedBegun entry.fileId).shared .authorize)
    [.turn 3 [], .turn 3 [.beginRead], .turn 3 [], .turn 3 [], .turn 3 [],
      .turn 3 [.serve 0 0 bytes.length]]
    (hostedFetching entry.fileId requested shared (.done (.ok (.range
      ((hostedSession entry.fileId).inner.serve 0 bytes.length).status bytes)))) := by
  have hsession : ((hostedBegun entry.fileId).shared.run .beginRead).sessions[0]? =
      some (hostedSession entry.fileId) := rfl
  have hrun := (@Run.nil _ _ (Step server)
      (hostedFetching entry.fileId requested (hostedBegun entry.fileId).shared .authorize))
    |>.snoc (turned (.authorize (h.ensured _ _)))
    |>.snoc (turned (.lookup (World.serverLockFree_of_all rfl) rfl (authenticated _ _)))
    |>.snoc (turned (.gate hsession rfl))
    |>.snoc (turned (.recheck (h.ensured _ _)))
    |>.snoc (turned (.fetch 0 hsession h.fetched))
    |>.snoc (turned (.finish hsession (h.finished (show 0 < fromMillis 1000 by decide)
      (show RemoteTransferState.running ≠ .cancelled by decide))))
  exact ⟨_, hrun⟩

theorem beginning_run (server : ServerState) (entry : OfferManifestEntry)
    (hpos : 0 < requested) (hfits : requested ≤ maxSecureRangeBytes) : ∃ ls system,
    Run (SystemStep server) (.start 0 fun _ => true) ls system ∧
    system.client = ⟨⟨[{ hostedReader entry none 1 with transferLocked := true }], [0], false,
      false⟩, [.source 0 (.readAt 0 requested) (.beginning (.read 0 requested))]⟩ ∧
    system.world = soloStart ∧ system.exchanges = (fun _ => .idle) ∧
    system.slots = fun _ => ⟨none, none⟩ := by
  have hstart : SourcePc.advance false false (hostedReader entry none 0)
      (.start (.readAt 0 requested)) =
      some (hostedReader entry none 0, .gateCancelled 0 requested) := by
    simp only [SourcePc.advance, if_neg (Nat.ne_of_gt hpos)]
  have hpaused : SourcePc.advance false false (hostedReader entry none 0)
      (.gatePaused 0 requested) =
      some (hostedReader entry none 1, .lockTransfer (.read 0 requested)) := by
    simp only [SourcePc.advance, Nat.min_eq_left hfits]
    rfl
  have hrun := (@Run.nil _ _ (SystemStep server) (System.start 0 fun _ => true))
    |>.snoc (.client rfl (.remember 0 ⟨repeatedId 0, [entry], 0⟩ entry
      (ClientWorld.registryFree_of_all rfl)))
    |>.snoc (.client rfl (@ClientStep.spawn _ _
      (.source 0 (.readAt 0 requested) (.start (.readAt 0 requested))) rfl))
    |>.snoc (.client rfl (.source (t := 0) rfl rfl rfl hstart))
    |>.snoc (.client rfl (.source (t := 0) rfl rfl rfl rfl))
    |>.snoc (.client rfl (.source (t := 0) rfl rfl rfl hpaused))
    |>.snoc (.client rfl (.source (t := 0) rfl rfl rfl rfl))
  exact ⟨_, _, hrun, rfl, rfl, rfl, rfl⟩

theorem reading_run (h : Hosts server entry requested bytes) : ∃ ls system,
    Run (SystemStep server) (.start 0 fun _ => true) ls system ∧
    system.client = hostedReading entry requested
      (some ((hostedSession entry.fileId).credentials 0))
      (.reading ((hostedSession entry.fileId).credentials 0) 0 requested) ∧
    system.world = hostedBegun entry.fileId ∧ system.exchanges 0 = .idle ∧
    system.slots ⟨0, .data⟩ = ⟨none, none⟩ := by
  have hpos : 0 < requested :=
    Nat.lt_of_lt_of_le (List.length_pos_iff.mpr h.nonempty) h.fits.1
  obtain ⟨ls, system, hrun, hclient, hworld, hidle, hslots⟩ :=
    beginning_run server entry hpos h.fits.2
  have hasks : system.Asks 0 (.beginTransfer 0)
      { hostedReader entry none 1 with transferLocked := true } :=
    ⟨0, .beginning (.read 0 requested), ⟨_, by rw [hclient]; rfl, rfl⟩, rfl, by rw [hclient]; rfl⟩
  obtain ⟨opcode, payload, hencode, hagrees⟩ := @request_agrees (.beginTransfer 0)
    (repeatedSecret 5) server soloPeer { hostedReader entry none 1 with transferLocked := true }
    (show repeatedSecret 5 ≠ repeatedSecret 0 by decide)
  obtain rfl : Opcode.beginTransfer = opcode := by cases hencode; rfl
  have hdone : At (system.world.calls.length + 1) (hostedBegin entry.fileId)
      (.done (.ok (.began ((hostedSession entry.fileId).credentials 0))))
      (hostedBegun entry.fileId) := by
    rw [hworld]
    rfl
  obtain ⟨ls', served, hserve, hworld', hclient', ⟨command, hresponded⟩, hothers⟩ :=
    round_trip hasks (by rw [hidle]) hencode (by rw [hslots]) hagrees.fits
      (h.allowed system.world.toView) (hagrees.decoded 0 0)
      (by rw [hworld]; exact h.begun_run) hdone
      (by simp [respond, beginResponse, maxFramePayload, maxSecureManifestBytes])
  obtain ⟨client, world, links, slots, exchanges, nextRequestId⟩ := served
  obtain rfl : client = _ := hclient'.trans hclient
  have houtcome : (exchanges 0).outcome =
      some (.ok (respond (.ok (.began ((hostedSession entry.fileId).credentials 0))))) :=
    congrArg Exchange.outcome hresponded
  have hread := (hrun.append hserve)
    |>.snoc (.answer (t := 0) ⟨0, .beginning (.read 0 requested), ⟨_, rfl, rfl⟩, rfl, rfl⟩
      houtcome (by
        rw [reply_began_respond rfl rfl]
        exact .answer (t := 0) rfl rfl rfl rfl))
    |>.snoc (.client rfl (.source (t := 0) rfl rfl rfl rfl))
    |>.snoc (.client rfl (.source (t := 0) rfl rfl rfl rfl))
  have hquiet : Function.update exchanges 0 .idle 0 = .idle := Function.update_self ..
  have hdata : slots ⟨0, .data⟩ = ⟨none, none⟩ :=
    (hothers ⟨0, .data⟩ fun hsame => by cases hsame).trans (congrFun hslots _)
  exact ⟨_, _, hread, rfl, hworld', hquiet, hdata⟩

theorem returned_run (h : Hosts server entry requested bytes) : ∃ ls system,
    Run (SystemStep server) (.start 0 fun _ => true) ls system ∧
    Returned entry system 0 requested bytes := by
  obtain ⟨ls, system, hrun, hclient, hworld, hidle, hslot⟩ := h.reading_run
  obtain ⟨shared, hfetch⟩ := h.fetched_run
  have hasks : system.Asks 0 (.readRange ((hostedSession entry.fileId).credentials 0) 0 requested)
      (hostedReader entry (some ((hostedSession entry.fileId).credentials 0)) 1) :=
    ⟨0, .reading ((hostedSession entry.fileId).credentials 0) 0 requested,
      ⟨_, by rw [hclient]; rfl, rfl⟩, rfl, by rw [hclient]; rfl⟩
  obtain ⟨opcode, payload, hencode, hagrees⟩ := @request_agrees
    (.readRange ((hostedSession entry.fileId).credentials 0) 0 requested) (repeatedSecret 5) server
    soloPeer (hostedReader entry (some ((hostedSession entry.fileId).credentials 0)) 1) h.fits.2
  obtain ⟨rfl, -⟩ := @encode_readRange server _ _ _ _ _ _ _ hencode soloPeer 0 0
  have hentry : (hostedFetch entry.fileId requested).entry = .authorize :=
    if_neg (Nat.not_lt.mpr h.fits.2)
  have hlimit : bytes.length ≤ maxSecureRangeBytes := Nat.le_trans h.fits.1 h.fits.2
  obtain ⟨ls', served, hserve, hworld', hclient', ⟨command, hresponded⟩, hothers⟩ :=
    round_trip hasks hidle hencode hslot hagrees.fits (h.allowed _) (hagrees.decoded 0 0)
      (by rw [hworld]; exact hentry ▸ hfetch) (by rw [hworld]; rfl) (respond_range_fits _ hlimit)
  obtain ⟨client, world, links, slots, exchanges, nextRequestId⟩ := served
  obtain rfl : client = _ := hclient'.trans hclient
  have houtcome : (exchanges 0).outcome = some (.ok (respond (.ok (.range
      ((hostedSession entry.fileId).inner.serve 0 bytes.length).status bytes)))) :=
    congrArg Exchange.outcome hresponded
  have hreceived : SourcePc.advance false false
      (hostedReader entry (some ((hostedSession entry.fileId).credentials 0)) 1)
      (.received ((hostedSession entry.fileId).credentials 0) 0 bytes) =
      some ({ hostedReader entry (some ((hostedSession entry.fileId).credentials 0)) 1 with
        bytesRead := 0 + bytes.length }, .returned (.ok bytes)) := by
    simp only [SourcePc.advance, h.nonempty, false_and, if_false]
    rfl
  have hreturn := (hrun.append hserve)
    |>.snoc (.answer (t := 0) ⟨0, .reading ((hostedSession entry.fileId).credentials 0) 0 requested,
      ⟨_, rfl, rfl⟩, rfl, rfl⟩ houtcome (by
        rw [reply_range_respond (range_small hlimit) h.fits.1]
        exact .answer (t := 0) rfl rfl rfl rfl))
    |>.snoc (.client rfl (.source (t := 0) rfl rfl rfl hreceived))
  exact ⟨_, _, hreturn, 0, 0, rfl, _, rfl, rfl, rfl⟩

theorem answers (h : Hosts server entry bytes.length bytes) (size : UInt64) :
    AnswersRemotely server 0 (fun _ => true) entry (firstRead size bytes) := by
  intro attempt offset length read buffer hpos hread
  simp only [firstRead] at hread
  split at hread
  · rename_i hasked
    obtain ⟨hoffset, rfl⟩ := hasked
    obtain rfl : offset = 0 := UInt64.toNat_inj.mp hoffset
    cases hread
    obtain ⟨ls, system, hrun, hreturned⟩ := h.returned_run
    exact ⟨ls, system, bytes, hrun, hreturned, by simp, by simp⟩
  · cases hread

end Hosts

theorem firstRead_fill (size : UInt64) (hbytes : bytes ≠ []) :
    (⟨firstRead size bytes, 0⟩ : VirtualStream).fill 0 bytes.length [] = .ok bytes := by
  have hanswer : (firstRead size bytes).readAt 0 (0 : UInt64).toNat
      (bytes.length - ([] : List UInt8).length) = (memorySource bytes).readAt 0 0 bytes.length :=
    if_pos ⟨rfl, rfl⟩
  have hpos := List.length_pos_iff.mpr hbytes
  rw [VirtualStream.fill_more (Nat.not_le.mpr hpos) rfl hanswer (by simp) (by simpa using hbytes),
    VirtualStream.fill_full (by simp)]
  simp

theorem firstRead_read (size : UInt64) (hbytes : bytes ≠ []) (hsmall : bytes.length < 2 ^ 32) :
    ∃ last, (⟨firstRead size bytes, 0⟩ : VirtualStream).readImpl 0 false (.ofNat bytes.length) =
      .ok (bytes, last) := by
  have hcount : (UInt32.ofNat bytes.length).toNat = bytes.length :=
    UInt32.toNat_ofNat_of_lt' hsmall
  have hposition : checkedAdd 0 bytes.length = .ok (0 + .ofNat bytes.length) := by
    refine if_neg (Nat.not_le.mpr ?_)
    rw [UInt64.toNat_zero]
    omega
  refine ⟨⟨firstRead size bytes, 0 + .ofNat bytes.length⟩, ?_⟩
  rw [VirtualStream.readImpl, if_neg (fun h => Bool.noConfusion h.2), hcount,
    firstRead_fill size hbytes]
  dsimp only [bind, Except.bind]
  rw [hposition]

def soloEntry : OfferManifestEntry := ⟨repeatedId 1, .basic ['a'] 5⟩

theorem soloOffers : OffersContent soloServer soloEntry [1, 2, 3, 4, 5] where
  described := rfl
  served source hsource := by
    cases (AList.lookup_insert (s := ∅)).symm.trans hsource
    exact memorySource_serves _
  length := rfl

theorem soloHosts : Hosts soloServer soloEntry 5 [1, 2, 3, 4, 5] where
  authorizedPeer := rfl
  trustStore := rfl
  offerId := rfl
  alive := by decide
  transferTtl := rfl
  described := rfl
  source := ⟨_, _, AList.lookup_insert (s := ∅), rfl, rfl⟩
  fits := by decide
  nonempty := by decide

theorem remote_read_integrity_solo :
    (∃ ls system, Run (SystemStep soloServer) (.start 0 fun _ => true) ls system ∧
      Returned soloEntry system 0 5 [1, 2, 3, 4, 5] ∧
      ([1, 2, 3, 4, 5].length = 0 ↔ soloEntry.descriptor.size ≤ 0)) ∧
    ∃ source bytes stream', (⟨source, 0⟩ : VirtualStream).readImpl 0 false 5 =
      .ok (bytes, stream') ∧ bytes.length = 5 := by
  obtain ⟨hreturns, hstreams⟩ := remote_read_integrity soloOffers 0 (fun _ => true)
  obtain ⟨ls, system, hrun, hreturned⟩ := soloHosts.returned_run
  obtain ⟨last, hread⟩ := firstRead_read 5 soloHosts.nonempty (by decide)
  exact ⟨⟨ls, system, hrun, hreturned, (hreturns _ _ _ _ _ hrun (by decide) hreturned).2.2⟩,
    _, _, _, hread, (hstreams _ _ _ _ _ _ (soloHosts.answers 5) hread).1⟩

end ClipFerry.Client
