import ClipFerry.Client.Finished
import ClipFerry.Foundation.Counting
import ClipFerry.Product.Progress
import ClipFerry.Protocol.ReceivedManifest

namespace ClipFerry.Client

open Protocol Counting

variable {κ : Type} {client : ClientWorld κ} {manifest : OfferManifest}

def ClientWorld.fileId (client : ClientWorld κ) (s : Nat) : Option ProtocolId :=
  (client.registry.sources[s]?).map (·.fileId)

def ClientWorld.Finished (client : ClientWorld κ) (entry : OfferManifestEntry) : Prop :=
  ∃ s, client.AtEnd s ∧ client.fileId s = some entry.fileId

structure ClientWorld.OneEach (client : ClientWorld κ) : Prop where
  remembered {s : Nat} : client.AtEnd s → s ∈ client.registry.remembered
  once {s r : Nat} : client.AtEnd s → client.AtEnd r → client.fileId s = client.fileId r → s = r

namespace ClientWorld

def ended (client : ClientWorld κ) : List Nat :=
  client.registry.remembered.filter fun s =>
    (client.registry.sources[s]?).any (·.completionSent)

theorem completedTransfers_eq (client : ClientWorld κ) :
    client.registry.localProgress.completedTransfers = client.ended.length := by
  have hcount : client.registry.localProgress.completedTransfers =
      client.registry.rememberedSources.countP (·.completionSent) := rfl
  rw [hcount, Registry.rememberedSources, List.countP_filterMap, ended,
    List.countP_eq_length_filter]
  congr 2
  funext s
  cases client.registry.sources[s]? <;> rfl

theorem mem_ended (h : client.Quiet) {s : Nat} :
    s ∈ client.ended ↔ s ∈ client.registry.remembered ∧ client.AtEnd s := by
  rw [ended, List.mem_filter, Option.any_eq_true]
  constructor
  · rintro ⟨hs, source, hsource, hflag⟩
    exact ⟨hs, (h.flags hsource).mp hflag⟩
  · rintro ⟨hs, hend⟩
    have hsource := List.getElem?_eq_getElem (h.ended hend)
    exact ⟨hs, _, hsource, (h.flags hsource).mpr hend⟩

theorem Opened.fileId_mem (h : client.Opened manifest) {s : Nat} (hs : client.AtEnd s) :
    client.fileId s ∈ (fileEntries manifest).map fun entry => some entry.fileId := by
  have hsource := List.getElem?_eq_getElem (h.quiet.ended hs)
  have hknown := h.known _ (List.mem_map_of_mem (List.mem_of_getElem? hsource))
  obtain ⟨entry, hentry, heq⟩ := List.mem_map.mp hknown
  exact List.mem_map.mpr ⟨entry, hentry, by rw [ClientWorld.fileId, hsource, heq]; rfl⟩

theorem ended_covers (h : client.Quiet)
    (hremembered : ∀ {s}, client.AtEnd s → s ∈ client.registry.remembered) :
    (∀ id ∈ (fileEntries manifest).map fun entry => some entry.fileId,
      ∃ s ∈ client.ended, client.fileId s = id) ↔
    ∀ entry ∈ fileEntries manifest, client.Finished entry := by
  simp only [List.forall_mem_map, Finished]
  refine forall₂_congr fun entry hentry => ?_
  constructor
  · rintro ⟨s, hs, hid⟩
    exact ⟨s, ((mem_ended h).mp hs).2, hid⟩
  · rintro ⟨s, hs, hid⟩
    exact ⟨s, (mem_ended h).mpr ⟨hremembered hs, hs⟩, hid⟩

theorem nodup_fileIds (hids : (manifest.entries.map (·.fileId)).Nodup) :
    ((fileEntries manifest).map fun entry => some entry.fileId).Nodup := by
  have hsub : (fileEntries manifest).Sublist manifest.entries := List.filter_sublist
  have hfiles := (hsub.map (·.fileId)).nodup hids
  have hsome := hfiles.map (Option.some_injective _)
  rwa [List.map_map] at hsome

theorem OneEach.completed_iff (hone : client.OneEach) (hopened : client.Opened manifest)
    (hids : (manifest.entries.map (·.fileId)).Nodup) :
    client.registry.localProgress.completedTransfers = (fileEntries manifest).length ↔
      ∀ entry ∈ fileEntries manifest, client.Finished entry := by
  have hmem : ∀ {s}, s ∈ client.ended → client.AtEnd s := fun hs =>
    ((mem_ended hopened.quiet).mp hs).2
  have hcount := length_eq_iff_covered (hopened.nodup.filter _) (nodup_fileIds hids)
    (fun s hs => hopened.fileId_mem (hmem hs)) (fun s hs r hr => hone.once (hmem hs) (hmem hr))
  rw [List.length_map] at hcount
  rw [completedTransfers_eq, ← ended_covers hopened.quiet hone.remembered]
  exact hcount

theorem OneEach.of_completed (hopened : client.Opened manifest)
    (hids : (manifest.entries.map (·.fileId)).Nodup)
    (hremembered : ∀ {s}, client.AtEnd s → s ∈ client.registry.remembered)
    (hall : ∀ entry ∈ fileEntries manifest, client.Finished entry)
    (h : client.registry.localProgress.completedTransfers = (fileEntries manifest).length) :
    client.OneEach := by
  refine ⟨hremembered, fun {s r} hs hr => ?_⟩
  have hlength : client.ended.length =
      ((fileEntries manifest).map fun entry => some entry.fileId).length := by
    rw [← completedTransfers_eq, h, List.length_map]
  have hmem : ∀ {s}, client.AtEnd s → s ∈ client.ended := fun hs =>
    (mem_ended hopened.quiet).mpr ⟨hremembered hs, hs⟩
  exact injective_of_covered (nodup_fileIds hids)
    ((ended_covers hopened.quiet hremembered).mpr hall) hlength s (hmem hs) r (hmem hr)

end ClientWorld

end ClipFerry.Client

namespace ClipFerry.Product

open VirtualTree Protocol Client Transition

structure ProductSession.Receiving (session : ProductSession) (lease : ProductRemoteLease) :
    Prop where
  remote : session.remote = some lease
  direction : session.activeDirection = some .remote
  shown : session.snapshot.transfer.isSome = true

def ProductSession.reportedState (session : ProductSession) : Option ProductTransferState :=
  session.snapshot.transfer.map (·.state)

variable {κ : Type} {session : ProductSession} {lease : ProductRemoteLease}
  {outside : Outside κ} {now : Nat} {client : ClientWorld κ}

theorem reported_of_receiving (h : session.Receiving lease) :
    (session.refreshProgress outside now).reportedState =
      some (ProgressReading.remoteState (outside.registry lease.registry).localProgress
        (fileEntries lease.manifest).length) := by
  obtain ⟨transfer, htransfer⟩ := Option.isSome_iff_exists.mp h.shown
  have hreading : session.reading outside = .ofRemote (outside.registry lease.registry)
      (outside.recovery lease.registry) lease.manifest := by
    rw [ProductSession.reading, h.direction, h.remote]
  rw [ProductSession.refreshProgress, if_neg (by simp [h.direction]), hreading,
    ProductSession.reportedState]
  simp only [(session.smooth_same now _).snapshot, htransfer]
  rfl

theorem remoteState_completed {progress : TransferLocalProgress} {files : Nat}
    (hcancelled : progress.cancelled = false) (hpaused : progress.paused = false) :
    ProgressReading.remoteState progress files = .completed ↔
      files ≠ 0 ∧ progress.completedTransfers = files := by
  rw [ProgressReading.remoteState, if_neg (by simp [hcancelled]), if_neg (by simp [hpaused])]
  split
  · rename_i hdone
    exact iff_of_true rfl hdone
  · rename_i hdone
    refine iff_of_false ?_ hdone
    split <;> nofun

theorem completed_reported_iff {toLowercase : Char → Text} {response : List UInt8}
    {labels : List Unit}
    (hreceived : decodeManifestResponse toLowercase response = .ok lease.manifest)
    (hrun : Run (StreamStep lease.manifest) .empty labels client)
    (hregistry : outside.registry lease.registry = client.registry)
    (hreceiving : session.Receiving lease) (hcancelled : client.registry.groupCancelled = false)
    (hpaused : client.registry.groupPaused = false) (hfiles : fileEntries lease.manifest ≠ []) :
    (client.OneEach →
      ((session.refreshProgress outside now).reportedState = some .completed ↔
        ∀ entry ∈ fileEntries lease.manifest, client.Finished entry)) ∧
    ((∀ entry ∈ fileEntries lease.manifest, client.Finished entry) →
      (∀ s, client.AtEnd s → s ∈ client.registry.remembered) →
      (session.refreshProgress outside now).reportedState = some .completed → client.OneEach) := by
  have hopened := ClientWorld.opened_of_run hrun
  have hids := decodeManifestResponse_nodup hreceived
  have hnonempty : (fileEntries lease.manifest).length ≠ 0 := by
    simpa using hfiles
  rw [reported_of_receiving hreceiving, hregistry, Option.some.injEq,
    remoteState_completed hcancelled hpaused]
  constructor
  · intro hone
    rw [← hone.completed_iff hopened hids]
    exact and_iff_right hnonempty
  · rintro hall hremembered ⟨-, hcount⟩
    exact .of_completed hopened hids (fun {s} => hremembered s) hall hcount

def pairEntry (second : Bool) : OfferManifestEntry :=
  ⟨repeatedId (if second = true then 2 else 1), .basic (if second = true then ['b'] else ['a']) 0⟩

def pairManifest : OfferManifest := ⟨repeatedId 9, [pairEntry false, pairEntry true], fromMillis 1⟩

theorem pairManifest_received : decodeManifestResponse (fun c => [c])
    (manifestHeader pairManifest ++ pairManifest.entries.flatMap entryBytes) = .ok pairManifest :=
  decodeManifestResponse_bytes pairManifest ((validate_eq_ok_iff _).mp (by decide)) (by decide)
    (by decide) (by decide)

def pairSource (second ended : Bool) : RemoteSource Nat :=
  { (RemoteSource.new 0 pairManifest (pairEntry second) : RemoteSource Nat) with
    transfer := if ended = true then some 0 else none
    nextControlSequence := if ended = true then 2 else 1
    completionSent := ended
    readCalls := ended.toNat }

def pairRegistry (second firstEnded secondEnded : Bool) : Registry Nat :=
  ⟨[pairSource false firstEnded, pairSource second secondEnded], [0, 1], false, false⟩

def pairRead (s : Nat) (pc : SourcePc Nat) : Thread Nat := .source s (.readAt 0 1) pc

theorem pair_first_call (second : Bool) : StreamStep pairManifest
    ⟨pairRegistry second false false, []⟩ ()
    ⟨pairRegistry second true false, [pairRead 0 (.returned (.ok []))]⟩ := by
  have hrun := (@Run.nil _ _ ClientStep
      ⟨pairRegistry second false false, [pairRead 0 (.start (.readAt 0 1))]⟩)
    |>.snoc (.source (t := 0) rfl rfl rfl rfl) |>.snoc (.source (t := 0) rfl rfl rfl rfl)
    |>.snoc (.source (t := 0) rfl rfl rfl rfl) |>.snoc (.source (t := 0) rfl rfl rfl rfl)
    |>.snoc (a := .answer 0 (.began 0)) (.answer rfl rfl rfl rfl)
    |>.snoc (.source (t := 0) rfl rfl rfl rfl) |>.snoc (.source (t := 0) rfl rfl rfl rfl)
    |>.snoc (a := .answer 0 (.range ⟨.running, 0⟩ [])) (.answer rfl rfl rfl rfl)
    |>.snoc (.source (t := 0) rfl rfl rfl rfl) |>.snoc (.source (t := 0) rfl rfl rfl rfl)
    |>.snoc (a := .answer 0 (.status ⟨.completed, 0⟩)) (.answer rfl rfl rfl rfl)
  exact @StreamStep.call _ _ ⟨pairRegistry second false false, []⟩ _
    (pairRead 0 (.start (.readAt 0 1))) (pairRead 0 (.returned (.ok []))) _ rfl rfl
    (by simp [ClientLabel.thread]) hrun rfl rfl

theorem pair_second_call (second : Bool) : StreamStep pairManifest
    ⟨pairRegistry second true false, [pairRead 0 (.returned (.ok []))]⟩ ()
    ⟨pairRegistry second true true,
      [pairRead 0 (.returned (.ok [])), pairRead 1 (.returned (.ok []))]⟩ := by
  have hrun := (@Run.nil _ _ ClientStep ⟨pairRegistry second true false,
      [pairRead 0 (.returned (.ok [])), pairRead 1 (.start (.readAt 0 1))]⟩)
    |>.snoc (.source (t := 1) rfl rfl rfl rfl) |>.snoc (.source (t := 1) rfl rfl rfl rfl)
    |>.snoc (.source (t := 1) rfl rfl rfl rfl) |>.snoc (.source (t := 1) rfl rfl rfl rfl)
    |>.snoc (a := .answer 1 (.began 0)) (.answer rfl rfl rfl rfl)
    |>.snoc (.source (t := 1) rfl rfl rfl rfl) |>.snoc (.source (t := 1) rfl rfl rfl rfl)
    |>.snoc (a := .answer 1 (.range ⟨.running, 0⟩ [])) (.answer rfl rfl rfl rfl)
    |>.snoc (.source (t := 1) rfl rfl rfl rfl) |>.snoc (.source (t := 1) rfl rfl rfl rfl)
    |>.snoc (a := .answer 1 (.status ⟨.completed, 0⟩)) (.answer rfl rfl rfl rfl)
  exact @StreamStep.call _ _ ⟨pairRegistry second true false, [pairRead 0 (.returned (.ok []))]⟩ _
    (pairRead 1 (.start (.readAt 0 1))) (pairRead 1 (.returned (.ok []))) _ rfl rfl
    (by simp [ClientLabel.thread]) hrun rfl rfl

def pairClient (second : Bool) : ClientWorld Nat :=
  ⟨pairRegistry second true true, [pairRead 0 (.returned (.ok [])), pairRead 1 (.returned (.ok []))]⟩

theorem pairClient_run (second : Bool) :
    Run (StreamStep pairManifest) .empty [(), (), (), ()] (pairClient second) := by
  have hfirst : StreamStep pairManifest (ClientWorld.empty : ClientWorld Nat) ()
      ⟨⟨[pairSource false false], [0], false, false⟩, []⟩ :=
    @StreamStep.openStream _ _ _ 0 (pairEntry false) (by decide) (by decide)
  have hsecond : StreamStep pairManifest ⟨⟨[pairSource false false], [0], false, false⟩, []⟩ ()
      ⟨pairRegistry second false false, []⟩ :=
    @StreamStep.openStream _ _ _ 0 (pairEntry second) (by cases second <;> decide)
      (by cases second <;> decide)
  exact (Run.single hfirst).snoc hsecond |>.snoc (pair_first_call second)
    |>.snoc (pair_second_call second)

def pairOutside (second : Bool) : Outside Nat :=
  ⟨fun _ => (pairClient second).registry, fun _ => ⟨0, 0, 0⟩, fun _ => ⟨0, 0, 0⟩⟩

def pairSession : ProductSession :=
  { ProductSession.start (soloSettings true) [] 0 with
    remote := some ⟨0, pairManifest⟩
    activeDirection := some .remote
    snapshot := (ProductSnapshot.initial (soloSettings true) []).announce
      (summarizeManifest "接收" pairManifest) }

theorem completed_reported_iff_pair :
    (pairSession.refreshProgress (pairOutside true) 1).reportedState = some .completed ∧
      ∀ entry ∈ fileEntries pairManifest, (pairClient true).Finished entry := by
  have hrun := pairClient_run true
  have hopened := ClientWorld.opened_of_run hrun
  have hone : (pairClient true).OneEach := by
    have hids : ∀ s < 2, ∀ r < 2, (pairClient true).fileId s = (pairClient true).fileId r →
        s = r := by decide
    constructor
    · intro s hs
      exact List.mem_range.mpr (hopened.quiet.ended hs)
    · intro s r hs hr
      exact hids s (hopened.quiet.ended hs) r (hopened.quiet.ended hr)
  have hreported : (pairSession.refreshProgress (pairOutside true) 1).reportedState =
      some .completed := by decide
  have hiff := (@completed_reported_iff _ pairSession ⟨0, pairManifest⟩ (pairOutside true) 1
    (pairClient true) _ _ _ pairManifest_received hrun rfl ⟨rfl, rfl, rfl⟩ rfl rfl (by decide)).1
  exact ⟨hreported, (hiff hone).mp hreported⟩

theorem completed_reported_with_an_unread_file : ∃ labels,
    Run (StreamStep pairManifest) .empty labels (pairClient false) ∧
    pairSession.Receiving ⟨0, pairManifest⟩ ∧
    (pairSession.refreshProgress (pairOutside false) 1).reportedState = some .completed ∧
    ¬∀ entry ∈ fileEntries pairManifest, (pairClient false).Finished entry := by
  refine ⟨_, pairClient_run false, ⟨rfl, rfl, rfl⟩, by decide, fun hall => ?_⟩
  obtain ⟨s, hs, hid⟩ := hall (pairEntry true) (by decide)
  have hids : ∀ s < 2, (pairClient false).fileId s ≠ some (pairEntry true).fileId := by decide
  exact hids s ((ClientWorld.opened_of_run (pairClient_run false)).quiet.ended hs) hid

end ClipFerry.Product
