import ClipFerry.Product.SenderProgress

namespace ClipFerry.Product

open Foundation Protocol Server Transition WordSum

def ProductSession.ReportsCompleted (session : ProductSession) : Prop :=
  ∃ bytes, session.reported = some (bytes, .completed)

structure Settled (entries : List OfferManifestEntry) (book : Book) (shown : ProductSession)
    (uniqueBytes : Nat) : Prop where
  bounded : min uniqueBytes (offerBytes entries).card ≤ book.ledger.served.card
  complete : (offerBytes entries).card ≤ uniqueBytes → book.Complete entries
  kept : shown.ReportsCompleted → (offerBytes entries).card ≤ uniqueBytes

structure Summing (entries : List OfferManifestEntry) (book : Book) (shown : ProductSession)
    (done todo : List Nat) (snap : Nat → Finset FileByte) (sum : UInt64) : Prop where
  visited : (done ++ todo).Perm book.remembered
  past : ∀ i, snap i ⊆ book.ledger.counted i
  exact : sum.toNat = Tally.total snap done
  kept : shown.ReportsCompleted → offerBytes entries ⊆ Tally.union snap book.remembered

def Sampled (entries : List OfferManifestEntry) (book : Book) (shown : ProductSession) :
    Sampler → Prop
  | .idle => True
  | .summing todo sum => ∃ done snap, Summing entries book shown done todo snap sum
  | .loading uniqueBytes | .counting uniqueBytes _ =>
    Settled entries book shown uniqueBytes.toNat

structure Told (entries : List OfferManifestEntry) (book : Book) (bytes : Nat)
    (state : ProductTransferState) : Prop where
  bounded : bytes ≤ book.ledger.served.card
  whole : state = .completed → bytes = (offerBytes entries).card ∧ bytes ≠ 0
  complete : state = .completed →
    book.Complete entries ∧ book.shared.metrics.cancelledTransfers = 0

structure Truthful (server : ServerState) (source : LiveSourceOffer) (s : SenderWorld) : Prop where
  reached : ∃ now trusted ls, Run (Step server) (World.start now trusted) ls s.world
  sound : s.book.Sound server.offered.storedManifest.entries
  sending : s.session.Sending source
  told : ∀ {bytes state}, s.session.reported = some (bytes, state) →
    Told server.offered.storedManifest.entries s.book bytes state
  sampled : Sampled server.offered.storedManifest.entries s.book s.session s.sampler

variable {server : ServerState} {source : LiveSourceOffer} {s : SenderWorld}
  {entries : List OfferManifestEntry} {book book' : Book} {shown : ProductSession}
  {done todo : List Nat} {snap : Nat → Finset FileByte} {i uniqueBytes : Nat} {sum : UInt64}
  {session : TransferSession}

theorem Summing.add (h : Summing entries book shown done todo snap sum) (hsound : book.Sound entries)
    (hi : i ∈ todo) (hsession : book.shared.sessions[i]? = some session) :
    Summing entries book shown (i :: done) (todo.erase i) (Function.update snap i (book.ledger.counted i))
      (sum + .ofNat session.inner.coverage.uniqueBytes) := by
  have hvisited : (i :: done ++ todo.erase i).Perm book.remembered :=
    calc (i :: done ++ todo.erase i).Perm (done ++ i :: todo.erase i) := List.perm_middle.symm
      _ |>.Perm (done ++ todo) := (List.perm_cons_erase hi).symm.append_left done
      _ |>.Perm book.remembered := h.visited
  have hpast : ∀ j, Function.update snap i (book.ledger.counted i) j ⊆ book.ledger.counted j := by
    intro j
    rw [Function.update_apply]
    split
    · next hsame => rw [hsame]
    · exact h.past j
  have hnew : i ∉ done := by
    have hnodup := hvisited.nodup_iff.mpr hsound.nodup
    exact fun hmem => (List.nodup_cons.mp hnodup).1 (List.mem_append_left _ hmem)
  have hdone : Tally.total (Function.update snap i (book.ledger.counted i)) done =
      Tally.total snap done := by
    refine Tally.total_congr fun j hj => Function.update_of_ne ?_ ..
    rintro rfl
    exact hnew hj
  have htotal : Tally.total (Function.update snap i (book.ledger.counted i)) (i :: done) =
      sum.toNat + session.inner.coverage.uniqueBytes := by
    have hnumber : session.inner.coverage.uniqueBytes = (book.ledger.counted i).card :=
      (hsound.counts hsession).number
    rw [Tally.total_cons, Function.update_self, hdone, h.exact, hnumber, Nat.add_comm]
  have hsmall : sum.toNat + session.inner.coverage.uniqueBytes < 2 ^ 64 := by
    rw [← htotal]
    calc Tally.total (Function.update snap i (book.ledger.counted i)) (i :: done)
        ≤ Tally.total book.ledger.counted (i :: done) := Tally.total_mono fun j _ => hpast j
      _ ≤ Tally.total book.ledger.counted (i :: done ++ todo.erase i) :=
        Tally.total_sublist (List.sublist_append_left _ _)
      _ = Tally.total book.ledger.counted book.remembered := Tally.total_perm hvisited
      _ < 2 ^ 64 := hsound.fits
  refine ⟨hvisited, hpast, ?_, fun hcompleted => ?_⟩
  · rw [htotal, UInt64.toNat_add, UInt64.toNat_ofNat', Nat.add_mod_mod, Nat.mod_eq_of_lt hsmall]
  · refine (h.kept hcompleted).trans (Tally.union_mono fun j _ => ?_)
    rw [Function.update_apply]
    split
    · next hsame => exact hsame ▸ h.past j
    · rfl

theorem Summing.settled (h : Summing entries book shown done [] snap sum) (hsound : book.Sound entries) :
    Settled entries book shown sum.toNat := by
  have hperm : done.Perm book.remembered := by
    have hvisited := h.visited
    rwa [List.append_nil] at hvisited
  have hsum : sum.toNat = Tally.total snap book.remembered :=
    h.exact.trans (Tally.total_perm hperm)
  have hkept (hcompleted : shown.ReportsCompleted) : (offerBytes entries).card ≤ sum.toNat := by
    rw [hsum]
    exact (Finset.card_le_card (h.kept hcompleted)).trans (Tally.card_union_le _ _)
  rcases hsound.apart with hcomplete | hapart
  · refine ⟨(Nat.min_le_right _ _).trans ?_, fun _ => hcomplete, hkept⟩
    exact Finset.card_le_card (hcomplete.served hsound.toTallied)
  · have hcard : sum.toNat = (Tally.union snap book.remembered).card := by
      rw [hsum]
      exact (hapart.mono fun j _ => h.past j).total_eq hsound.nodup
    have hsub : Tally.union snap book.remembered ⊆ book.ledger.served :=
      Tally.union_subset.mpr fun j _ => (h.past j).trans (hsound.served j)
    refine ⟨?_, fun hall => ?_, hkept⟩
    · refine (Nat.min_le_left _ _).trans ?_
      rw [hcard]
      exact Finset.card_le_card hsub
    · rw [hcard] at hall
      have hsame := Finset.eq_of_subset_of_card_le (hsub.trans hsound.offered) hall
      rw [Book.Complete, ← hsame]
      exact Tally.union_mono fun j _ => h.past j

theorem Settled.grows (h : Settled entries book shown uniqueBytes)
    (hserved : book.ledger.served ⊆ book'.ledger.served)
    (hcomplete : book.Complete entries → book'.Complete entries) :
    Settled entries book' shown uniqueBytes where
  bounded := h.bounded.trans (Finset.card_le_card hserved)
  complete := fun hall => hcomplete (h.complete hall)
  kept := h.kept

theorem SenderStart.truthful (h : SenderStart server source s) : Truthful server source s := by
  obtain ⟨now, trusted, hworld⟩ := h.world
  have hbook : s.book = .empty := by
    rw [SenderWorld.book, hworld, h.ledger]
    rfl
  refine ⟨⟨now, trusted, [], hworld ▸ .nil⟩, hbook ▸ Book.empty_sound, h.sending, ?_, ?_⟩
  · intro bytes state hreported
    rw [h.awaiting] at hreported
    cases hreported
    exact ⟨Nat.zero_le _, nofun, nofun⟩
  · rw [h.sampler]
    trivial

theorem total_of_manifest (hmanifest : ∃ now, source.manifest = server.offered.manifest now)
    (hids : (server.offered.storedManifest.entries.map (·.fileId)).Nodup)
    (hfits : exactSum (entrySizes source.manifest) < 2 ^ 64) :
    (offerBytes server.offered.storedManifest.entries).card =
      (summarizeManifest "发送" source.manifest).totalSize.toNat := by
  obtain ⟨now, hmanifest⟩ := hmanifest
  rw [card_offerBytes hids]
  rw [hmanifest] at hfits ⊢
  exact (toNat_sum_eq_iff.mpr hfits).symm

namespace Truthful

variable {l : Label} {world : World} {now : Nat}

theorem book_server (h : Step server s.world l world) :
    SenderWorld.book { s with world := world, ledger := (l.updates.foldl Book.run s.book).ledger } =
      l.updates.foldl Book.run s.book := by
  rw [SenderWorld.book, h.shared_eq, show s.world.shared = s.book.shared from rfl,
    ← Book.foldl_shared]

theorem served (h : Truthful server source s) (hbounded : server.SourcesBounded)
    (hfits : (offerBytes server.offered.storedManifest.entries).card < 2 ^ 64)
    (hlocked : s.sampler.holdsServerLock = true → ∀ u ∈ l.updates, u.keepsTables = true)
    (hstep : Step server s.world l world)
    (hadmits : s.book.AdmitsAll server.offered.storedManifest.entries l.updates) :
    Truthful server source
      { s with world := world, ledger := (l.updates.foldl Book.run s.book).ledger } := by
  obtain ⟨now, trusted, ls, hrun⟩ := h.reached
  have hbook := book_server hstep
  have hserved := s.book.foldl_served l.updates
  have hcounted := s.book.foldl_counted l.updates
  have hcomplete (hall : s.book.Complete server.offered.storedManifest.entries) :=
    hall.foldl hadmits
  refine ⟨⟨now, trusted, _, hrun.snoc hstep⟩, ?_, h.sending, ?_, ?_⟩
  · rw [hbook]
    exact h.sound.foldl (fun u hu => hstep.within hbounded hrun hu) hadmits hfits
  · intro bytes state hreported
    obtain ⟨hle, hwhole, hdone⟩ := h.told hreported
    rw [hbook]
    refine ⟨hle.trans (Finset.card_le_card hserved), hwhole, fun hstate => ?_⟩
    obtain ⟨hall, hcancelled⟩ := hdone hstate
    obtain ⟨hall', hcancelled'⟩ := hcomplete hall
    exact ⟨hall', hcancelled'.trans hcancelled⟩
  · rw [hbook]
    have hsampled := h.sampled
    dsimp only
    cases hsampler : s.sampler with
    | idle => trivial
    | summing todo sum =>
      rw [hsampler] at hsampled
      obtain ⟨done, snap, hvisited, hpast, hexact, hkept⟩ := hsampled
      have hremembered : (l.updates.foldl Book.run s.book).remembered = s.book.remembered :=
        Book.foldl_remembered (hlocked (by rw [hsampler]; rfl))
      refine ⟨done, snap, ?_, fun i => (hpast i).trans (hcounted i), hexact, ?_⟩
      · rw [hremembered]
        exact hvisited
      · rw [hremembered]
        exact hkept
    | loading uniqueBytes | counting uniqueBytes begun =>
      rw [hsampler] at hsampled
      exact hsampled.grows hserved fun hall => (hcomplete hall).1

theorem completed (h : Truthful server source s) (hreports : s.session.ReportsCompleted) :
    s.book.Complete server.offered.storedManifest.entries ∧
      s.book.shared.metrics.cancelledTransfers = 0 := by
  obtain ⟨bytes, hreported⟩ := hreports
  exact (h.told hreported).complete rfl

theorem sample {sampler : Sampler} (h : Truthful server source s)
    (hsampled : Sampled server.offered.storedManifest.entries s.book s.session sampler) :
    Truthful server source { s with sampler := sampler } :=
  ⟨h.reached, h.sound, h.sending, h.told, hsampled⟩

theorem lock (h : Truthful server source s) : Summing server.offered.storedManifest.entries s.book
    s.session [] s.book.remembered s.ledger.counted 0 :=
  ⟨.refl _, fun _ => Finset.Subset.refl _, rfl, fun hreports => (h.completed hreports).1⟩

end Truthful

namespace ProgressReading

variable {metrics : SecureMetricsSnapshot} {manifest : OfferManifest}

theorem ofSource_bytes : (ofSource metrics manifest).bytes =
    min metrics.uniqueBytes (summarizeManifest "发送" manifest).totalSize.toNat := rfl

theorem ofSource_completed : (ofSource metrics manifest).state = .completed ↔
    metrics.cancelledTransfers = 0 ∧ (summarizeManifest "发送" manifest).totalSize ≠ 0 ∧
      (ofSource metrics manifest).bytes = (summarizeManifest "发送" manifest).totalSize.toNat := by
  rw [ofSource]
  dsimp only
  constructor
  · intro hstate
    split at hstate
    · cases hstate
    · next hcancelled =>
      split at hstate
      · next hall => exact ⟨not_not.mp hcancelled, hall⟩
      · split at hstate <;> cases hstate
  · rintro ⟨hcancelled, hall⟩
    rw [if_neg (not_not.mpr hcancelled), if_pos hall]

end ProgressReading

theorem Settled.told {metrics : SecureMetricsSnapshot}
    (h : Settled entries book shown metrics.uniqueBytes)
    (htotal : (offerBytes entries).card =
      (summarizeManifest "发送" source.manifest).totalSize.toNat)
    (hcancelled : metrics.cancelledTransfers = book.shared.metrics.cancelledTransfers) :
    Told entries book (ProgressReading.ofSource metrics source.manifest).bytes
      (ProgressReading.ofSource metrics source.manifest).state where
  bounded := by
    rw [ProgressReading.ofSource_bytes, ← htotal]
    exact h.bounded
  whole := fun hstate => by
    obtain ⟨-, hpositive, hall⟩ := ProgressReading.ofSource_completed.mp hstate
    refine ⟨hall.trans htotal.symm, fun hzero => hpositive ?_⟩
    rw [hall] at hzero
    exact UInt64.toNat_inj.mp hzero
  complete := fun hstate => by
    obtain ⟨hzero, -, hall⟩ := ProgressReading.ofSource_completed.mp hstate
    rw [ProgressReading.ofSource_bytes, ← htotal] at hall
    exact ⟨h.complete (min_eq_right_iff.mp hall), hcancelled ▸ hzero⟩

namespace Truthful

theorem stays {metrics : SecureMetricsSnapshot} (h : Truthful server source s)
    (htotal : (offerBytes server.offered.storedManifest.entries).card =
      (summarizeManifest "发送" source.manifest).totalSize.toNat)
    (hcancelled : metrics.cancelledTransfers = s.book.shared.metrics.cancelledTransfers)
    (hsettled : Settled server.offered.storedManifest.entries s.book s.session
      metrics.uniqueBytes)
    {bytes : Nat} (hreported : s.session.reported = some (bytes, .completed)) :
    (ProgressReading.ofSource metrics source.manifest).bytes = bytes ∧
      (ProgressReading.ofSource metrics source.manifest).state = .completed := by
  obtain ⟨hbytes, hpositive⟩ := (h.told hreported).whole rfl
  have hall : (ProgressReading.ofSource metrics source.manifest).bytes =
      (summarizeManifest "发送" source.manifest).totalSize.toNat := by
    rw [ProgressReading.ofSource_bytes, ← htotal]
    exact Nat.min_eq_right (hsettled.kept ⟨bytes, hreported⟩)
  refine ⟨hall.trans (htotal.symm.trans hbytes.symm), ?_⟩
  refine ProgressReading.ofSource_completed.mpr ⟨?_, ?_, hall⟩
  · exact hcancelled.trans (h.completed ⟨bytes, hreported⟩).2
  · intro hzero
    rw [hbytes, htotal, hzero] at hpositive
    exact hpositive rfl

theorem step {label : SenderLabel} {s' : SenderWorld} (h : Truthful server source s)
    (hbounded : server.SourcesBounded)
    (htotal : (offerBytes server.offered.storedManifest.entries).card =
      (summarizeManifest "发送" source.manifest).totalSize.toNat)
    (hstep : OrderlyStep server source s label s') :
    Truthful server source s' ∧ ∀ {bytes}, s.session.reported = some (bytes, .completed) →
      s'.session.reported = some (bytes, .completed) := by
  obtain ⟨hstep, hadmits⟩ := hstep
  cases hstep with
  | server hlocked hturn =>
    have hfits := htotal.trans_lt (UInt64.toNat_lt _)
    exact ⟨h.served hbounded hfits hlocked hturn (hadmits _ rfl), id⟩
  | lock => exact ⟨h.sample ⟨[], _, h.lock⟩, id⟩
  | add hsampler hi hsession =>
    have hsampled := h.sampled
    rw [hsampler] at hsampled
    obtain ⟨done, snap, hsumming⟩ := hsampled
    exact ⟨h.sample ⟨_, _, hsumming.add h.sound hi hsession⟩, id⟩
  | unlock hsampler =>
    have hsampled := h.sampled
    rw [hsampler] at hsampled
    obtain ⟨done, snap, hsumming⟩ := hsampled
    exact ⟨h.sample (hsumming.settled h.sound), id⟩
  | begun hsampler =>
    have hsampled := h.sampled
    rw [hsampler] at hsampled
    exact ⟨h.sample hsampled, id⟩
  | @refresh κ uniqueBytes begunTransfers now outside hsampler hmetrics =>
    have hsampled := h.sampled
    rw [hsampler] at hsampled
    have hcancelled : (outside.metrics source.server).cancelledTransfers =
        s.book.shared.metrics.cancelledTransfers := by
      rw [hmetrics]
      rfl
    have hsettled : Settled server.offered.storedManifest.entries s.book s.session
        (outside.metrics source.server).uniqueBytes := by
      rw [hmetrics]
      exact hsampled
    obtain ⟨hsending, hreported⟩ := h.sending.refresh outside now
    refine ⟨⟨h.reached, h.sound, hsending, ?_, trivial⟩, ?_⟩
    · intro bytes state hshown
      obtain ⟨rfl, rfl⟩ := Prod.mk.inj (Option.some.inj (hreported.symm.trans hshown))
      exact hsettled.told htotal hcancelled
    · intro bytes hbefore
      obtain ⟨hbytes, hstate⟩ := h.stays htotal hcancelled hsettled hbefore
      refine hreported.trans ?_
      dsimp only
      rw [hbytes, hstate]

end Truthful

end ClipFerry.Product
