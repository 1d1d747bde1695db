import ClipFerry.Product.Publish
import ClipFerry.Product.SenderLaw

namespace ClipFerry.Product

open Foundation Protocol Server Transition WordSum

theorem sender_progress_truthful {server : ServerState} {source : LiveSourceOffer}
    {start s : SenderWorld} {labels : List SenderLabel} (hbounded : server.SourcesBounded)
    (hfits : exactSum (entrySizes source.manifest) < 2 ^ 64)
    (hstart : SenderStart server source start)
    (hrun : Run (OrderlyStep server source) start labels s) :
    (∀ {bytes state}, s.session.reported = some (bytes, state) →
      bytes ≤ s.ledger.served.card ∧ (state = .completed →
        offerBytes server.offered.storedManifest.entries ⊆ s.ledger.served)) ∧
    (∀ {bytes labels' s'}, s.session.reported = some (bytes, .completed) →
      Run (OrderlyStep server source) s labels' s' →
      s'.session.reported = some (bytes, .completed)) := by
  have htotal := total_of_manifest hstart.manifest hstart.ids hfits
  have htruthful := hrun.invariant (I := Truthful server source)
    (fun hinv hstep => (hinv.step hbounded htotal hstep).1) hstart.truthful
  refine ⟨fun hreported => ?_, fun hreported hlater => ?_⟩
  · obtain ⟨hle, -, hdone⟩ := htruthful.told hreported
    exact ⟨hle, fun hstate => (hdone hstate).1.served htruthful.sound.toTallied⟩
  · have hlast := hlater.invariant
      (I := fun t => Truthful server source t ∧ ∀ {bytes},
        s.session.reported = some (bytes, .completed) →
          t.session.reported = some (bytes, .completed))
      (fun hinv hstep => by
        obtain ⟨hnext, hkept⟩ := hinv.1.step hbounded htotal hstep
        exact ⟨hnext, fun hbefore => hkept (hinv.2 hbefore)⟩) ⟨htruthful, id⟩
    exact hlast.2 hreported

def uniqueBytes (shared : Shared) (handles : List Nat) : UInt64 :=
  (handles.map fun i => .ofNat (shared.coverageOf i).uniqueBytes).sum

variable {server : ServerState} {source : LiveSourceOffer} {world world' : World}
  {ledger : Ledger} {session : ProductSession} {ls : List Label} {us vs : List Update}
  {entries : List OfferManifestEntry} {book : Book}

theorem summed_alone (todo : List Nat) (sum : UInt64)
    (hknown : ∀ i ∈ todo, i < world.shared.sessions.length) :
    ∃ labels, Run (OrderlyStep server source) ⟨world, ledger, .summing todo sum, session⟩ labels
      ⟨world, ledger, .summing [] (sum + uniqueBytes world.shared todo), session⟩ := by
  induction todo generalizing sum with
  | nil =>
    refine ⟨[], ?_⟩
    rw [uniqueBytes, List.map_nil, List.sum_nil, UInt64.add_zero]
    exact .nil
  | cons i todo ih =>
    obtain ⟨found, hfound⟩ : ∃ found, world.shared.sessions[i]? = some found :=
      ⟨_, List.getElem?_eq_getElem (hknown i List.mem_cons_self)⟩
    have hcount : found.inner.coverage.uniqueBytes = (world.shared.coverageOf i).uniqueBytes := by
      rw [Shared.coverageOf, hfound]
      rfl
    have hadd : SenderStep server source ⟨world, ledger, .summing (i :: todo) sum, session⟩
        .sample ⟨world, ledger, .summing todo (sum + .ofNat found.inner.coverage.uniqueBytes),
          session⟩ := by
      have hstep := @SenderStep.add server source
        ⟨world, ledger, .summing (i :: todo) sum, session⟩ (i :: todo) sum i found rfl
        List.mem_cons_self hfound
      rwa [List.erase_cons_head] at hstep
    obtain ⟨labels, hrun⟩ := ih (sum + .ofNat found.inner.coverage.uniqueBytes)
      fun j hj => hknown j (List.mem_cons_of_mem _ hj)
    have hsum : sum + .ofNat found.inner.coverage.uniqueBytes + uniqueBytes world.shared todo =
        sum + uniqueBytes world.shared (i :: todo) := by
      rw [hcount, UInt64.add_assoc, uniqueBytes, uniqueBytes, List.map_cons, List.sum_cons]
    rw [hsum] at hrun
    exact ⟨_, (Run.single (.sampled hadd)).append hrun⟩

theorem sampled_alone {κ : Type} {outside : Outside κ} {now : Nat}
    (hfree : world.ServerLockFree)
    (hknown : ∀ i ∈ world.shared.transfers.values, i < world.shared.sessions.length)
    (hmetrics : outside.metrics source.server = ⟨world.shared.metrics.begunTransfers,
      (uniqueBytes world.shared world.shared.transfers.values).toNat,
      world.shared.metrics.cancelledTransfers⟩) :
    ∃ labels, Run (OrderlyStep server source) ⟨world, ledger, .idle, session⟩ labels
      ⟨world, ledger, .idle, session.refreshProgress outside now⟩ := by
  obtain ⟨labels, hrun⟩ := @summed_alone server source world ledger session
    world.shared.transfers.values 0 hknown
  rw [UInt64.zero_add] at hrun
  have hlock : Run (OrderlyStep server source) ⟨world, ledger, .idle, session⟩ [.sample]
      ⟨world, ledger, .summing world.shared.transfers.values 0, session⟩ :=
    .single (.sampled (.lock rfl hfree))
  exact ⟨_, (((hlock.append hrun).snoc (.sampled (.unlock rfl))).snoc (.sampled (.begun rfl))).snoc
    (.sampled (.refresh rfl hmetrics))⟩

theorem admitsAll_append : book.AdmitsAll entries (us ++ vs) ↔
    book.AdmitsAll entries us ∧ (us.foldl Book.run book).AdmitsAll entries vs := by
  induction us generalizing book with
  | nil => exact (and_iff_right trivial).symm
  | cons u us ih =>
    rw [List.cons_append, Book.AdmitsAll, Book.AdmitsAll, ih, and_assoc]
    rfl

def bookAfter (world : World) (ledger : Ledger) (ls : List Label) : Book :=
  (ls.flatMap Label.updates).foldl Book.run ⟨world.shared, ledger⟩

theorem bookAfter_snoc {l : Label} : bookAfter world ledger (ls ++ [l]) =
    l.updates.foldl Book.run (bookAfter world ledger ls) := by
  rw [bookAfter, List.flatMap_append, List.flatMap_singleton, List.foldl_append]
  rfl

theorem bookAfter_shared (h : Run (Step server) world ls world') :
    (bookAfter world ledger ls).shared = world'.shared := by
  induction h with
  | nil => rfl
  | snoc _ last ih => rw [bookAfter_snoc, Book.foldl_shared, ih, last.shared_eq]

theorem served_alone (h : Run (Step server) world ls world') :
    Run (SenderStep server source) ⟨world, ledger, .idle, session⟩ (ls.map .server)
      ⟨world', (bookAfter world ledger ls).ledger, .idle, session⟩ ∧
    (Book.AdmitsAll server.offered.storedManifest.entries ⟨world.shared, ledger⟩
      (ls.flatMap Label.updates) →
      Run (OrderlyStep server source) ⟨world, ledger, .idle, session⟩ (ls.map .server)
        ⟨world', (bookAfter world ledger ls).ledger, .idle, session⟩) := by
  induction h with
  | nil => exact ⟨.nil, fun _ => .nil⟩
  | @snoc labels l t u run last ih =>
    have hbook : SenderWorld.book ⟨t, (bookAfter world ledger labels).ledger, .idle, session⟩ =
        bookAfter world ledger labels := by
      rw [SenderWorld.book, ← bookAfter_shared run]
    have hstep : SenderStep server source
        ⟨t, (bookAfter world ledger labels).ledger, .idle, session⟩ (.server l)
        ⟨u, (bookAfter world ledger (labels ++ [l])).ledger, .idle, session⟩ := by
      have hserver := @SenderStep.server server source
        ⟨t, (bookAfter world ledger labels).ledger, .idle, session⟩ l u
        (fun hlocked => absurd hlocked Bool.false_ne_true) last
      rwa [hbook, ← bookAfter_snoc] at hserver
    rw [List.map_append, List.flatMap_append, List.flatMap_singleton, admitsAll_append]
    refine ⟨ih.1.snoc hstep, fun hadmits => (ih.2 hadmits.1).snoc ⟨hstep, fun l' hl => ?_⟩⟩
    cases hl
    rw [hbook]
    exact hadmits.2

def soloSource : LiveSourceOffer := ⟨0, soloServer.offered.manifest 0⟩

def soloSender : ProductSession := (ProductSession.start (soloSettings false) [] 0).addSource soloSource

def soloSending : SenderWorld := ⟨soloStart, Book.empty.ledger, .idle, soloSender⟩

def senderOutside (uniqueBytes : Nat) (begunTransfers : Nat) : Outside Nat :=
  ⟨fun _ => ⟨[], [], false, false⟩, fun _ => ⟨0, 0, 0⟩, fun _ => ⟨begunTransfers, uniqueBytes, 0⟩⟩

theorem soloSending_start : SenderStart soloServer soloSource soloSending where
  world := ⟨0, fun _ => true, rfl⟩
  ledger := rfl
  sampler := rfl
  sending := ⟨rfl, rfl, rfl⟩
  awaiting := rfl
  manifest := ⟨0, rfl⟩
  ids := List.nodup_singleton _

def readLabels (k i read : Nat) : List Label :=
  [.turn k [], .turn k [.beginRead], .turn k [], .turn k [], .turn k [], .turn k [.serve i 0 read]]

def soloWholeLabels : List Label := soloBeginLabels ++ .invoke soloRead :: readLabels 1 0 5

def soloWhole : World where
  shared := (soloBegun.shared.run .beginRead).run (.serve 0 0 5)
  now := 0
  trusted _ := true
  calls := soloBegun.calls ++ [⟨soloRead, .done (.ok (.range ⟨.running, 5⟩ [1, 2, 3, 4, 5]))⟩]

theorem soloWhole_run : Run (Step soloServer) soloStart soloWholeLabels soloWhole := by
  have h := soloBegin_run
    |>.snoc (.invoke soloRead)
    |>.snoc (.turn (k := 1) rfl (.authorize rfl))
    |>.snoc (.turn (k := 1) rfl (.lookup (World.serverLockFree_of_all rfl) rfl rfl))
    |>.snoc (.turn (k := 1) rfl (.gate rfl rfl))
    |>.snoc (.turn (k := 1) rfl (.recheck rfl))
    |>.snoc (.turn (k := 1) rfl (.fetch 0 rfl rfl))
    |>.snoc (.turn (k := 1) rfl (.finish rfl rfl))
  exact h

theorem soloWhole_admits : Book.AdmitsAll soloServer.offered.storedManifest.entries
    ⟨soloStart.shared, Book.empty.ledger⟩ (soloWholeLabels.flatMap Label.updates) := by
  refine ⟨fun hall => ?_, rfl, trivial, ⟨fun _ session _ j hj hne => ?_, fun hall => ?_⟩, trivial⟩
  · exact hall
  · exact absurd (List.mem_singleton.mp hj) hne
  · have hfirst : ((repeatedId 1, 0) : FileByte) ∈
        offerBytes soloServer.offered.storedManifest.entries :=
      mem_offerBytes.mpr ⟨_, List.mem_singleton_self _, rfl, by decide⟩
    obtain ⟨i, -, hmem⟩ := Tally.mem_union.mp (hall hfirst)
    cases hmem

def soloWholeLedger : Ledger := (bookAfter soloStart Book.empty.ledger soloWholeLabels).ledger

def soloWholeReported : SenderWorld :=
  ⟨soloWhole, soloWholeLedger, .idle, soloSender.refreshProgress (senderOutside 5 1) 1⟩

theorem soloWhole_reported : ∃ labels,
    Run (OrderlyStep soloServer soloSource) soloSending labels soloWholeReported := by
  have hserved := (@served_alone soloServer soloSource _ _ Book.empty.ledger soloSender _
    soloWhole_run).2 soloWhole_admits
  obtain ⟨labels, hsample⟩ := @sampled_alone soloServer soloSource soloWhole soloWholeLedger
    soloSender Nat (senderOutside 5 1) 1 (World.serverLockFree_of_all rfl) (by decide) rfl
  exact ⟨_, hserved.append hsample⟩

theorem sender_progress_truthful_whole :
    soloWholeReported.session.reported = some (5, .completed) ∧
      5 ≤ soloWholeReported.ledger.served.card ∧
      offerBytes soloServer.offered.storedManifest.entries ⊆ soloWholeReported.ledger.served := by
  obtain ⟨labels, hrun⟩ := soloWhole_reported
  have hreported : soloWholeReported.session.reported = some (5, .completed) := rfl
  obtain ⟨htold, -⟩ := sender_progress_truthful soloServer_bounded (by decide) soloSending_start hrun
  obtain ⟨hle, hall⟩ := htold hreported
  exact ⟨hreported, hle, hall rfl⟩

/-! The same three bytes read in two transfers of the file, and a transfer that expires. -/

def twinSession : TransferSession :=
  ⟨soloPeer, repeatedId 0, repeatedId 1, repeatedId 12, repeatedSecret 13, repeatedSecret 14,
    fromMillis 1000, .fresh⟩

def twinBegin : Request :=
  .beginTransfer soloPeer (repeatedId 0) (repeatedId 1) (repeatedSecret 6)

def startRead (session : TransferSession) : Request :=
  .readRange soloPeer (session.credentials 0) 0 3

def twinLabels : List Label :=
  soloBeginLabels ++ [.invoke twinBegin, .turn 1 [], .turn 1 [], .turn 1 [.prune 0], .turn 1 [],
    .turn 1 [.create (repeatedSecret 6) twinSession]] ++
  .invoke (startRead soloSession) :: readLabels 2 0 3 ++
  .invoke (startRead twinSession) :: readLabels 3 1 3

def twinWorld : World where
  shared := ([.prune 0, .create (repeatedSecret 6) twinSession, .beginRead, .serve 0 0 3,
    .beginRead, .serve 1 0 3] : List Update).foldl Shared.run soloBegun.shared
  now := 0
  trusted _ := true
  calls := soloBegun.calls ++ [⟨twinBegin, .done (.ok (.began (twinSession.credentials 0)))⟩,
    ⟨startRead soloSession, .done (.ok (.range ⟨.running, 3⟩ [1, 2, 3]))⟩,
    ⟨startRead twinSession, .done (.ok (.range ⟨.running, 3⟩ [1, 2, 3]))⟩]

theorem twin_run : Run (Step soloServer) soloStart twinLabels twinWorld := by
  have h := soloBegin_run
    |>.snoc (.invoke twinBegin)
    |>.snoc (.turn (k := 1) rfl (.authorize rfl))
    |>.snoc (.turn (k := 1) rfl (.sample rfl))
    |>.snoc (.turn (k := 1) rfl (.admission (World.serverLockFree_of_all rfl) rfl))
    |>.snoc (.turn (k := 1) rfl (.count (i := 0) (List.mem_singleton_self _)))
    |>.snoc (.turn (k := 1) rfl
      (.create (some (repeatedId 12, repeatedSecret 13, repeatedSecret 14)) rfl))
    |>.snoc (.invoke (startRead soloSession))
    |>.snoc (.turn (k := 2) rfl (.authorize rfl))
    |>.snoc (.turn (k := 2) rfl (.lookup (World.serverLockFree_of_all rfl) rfl rfl))
    |>.snoc (.turn (k := 2) rfl (.gate rfl rfl))
    |>.snoc (.turn (k := 2) rfl (.recheck rfl))
    |>.snoc (.turn (k := 2) rfl (.fetch 0 rfl rfl))
    |>.snoc (.turn (k := 2) rfl (.finish rfl rfl))
    |>.snoc (.invoke (startRead twinSession))
    |>.snoc (.turn (k := 3) rfl (.authorize rfl))
    |>.snoc (.turn (k := 3) rfl (.lookup (World.serverLockFree_of_all rfl) rfl rfl))
    |>.snoc (.turn (k := 3) rfl (.gate rfl rfl))
    |>.snoc (.turn (k := 3) rfl (.recheck rfl))
    |>.snoc (.turn (k := 3) rfl (.fetch 0 rfl rfl))
    |>.snoc (.turn (k := 3) rfl (.finish rfl rfl))
  exact h

def twinLedger : Ledger := (bookAfter soloStart Book.empty.ledger twinLabels).ledger

theorem twinLedger_served : twinLedger.served = fileRange (repeatedId 1) 0 3 := by
  have hserved : twinLedger.served =
      (∅ ∪ fileRange (repeatedId 1) 0 3) ∪ fileRange (repeatedId 1) 0 3 := rfl
  rw [hserved, Finset.empty_union, Finset.union_self]

def soloExpired : World :=
  { soloWhole with
    shared := soloWhole.shared.run (.prune (fromMillis 1000))
    now := fromMillis 1000 }

theorem soloExpired_run :
    Run (Step soloServer) soloWhole [.clock, .cleanup (fromMillis 1000)] soloExpired := by
  have hclock : Step soloServer soloWhole .clock { soloWhole with now := fromMillis 1000 } :=
    .clock (Nat.zero_le _)
  exact (Run.single hclock).snoc (.cleanup (Nat.le_refl _) (World.serverLockFree_of_all rfl))

theorem sender_progress_untruthful :
    (∃ labels s, Run (SenderStep soloServer soloSource) soloSending labels s ∧
      s.session.reported = some (5, .completed) ∧ s.ledger.served.card < 5 ∧
      ¬offerBytes soloServer.offered.storedManifest.entries ⊆ s.ledger.served) ∧
    (∃ labels s labels' s', Run (SenderStep soloServer soloSource) soloSending labels s ∧
      s.session.reported = some (5, .completed) ∧
      Run (SenderStep soloServer soloSource) s labels' s' ∧
      s'.session.reported = some (0, .running)) := by
  have hweaken {s s' : SenderWorld} {labels : List SenderLabel}
      (h : Run (OrderlyStep soloServer soloSource) s labels s') :
      Run (SenderStep soloServer soloSource) s labels s' := h.mono And.left
  constructor
  · have hserved := (@served_alone soloServer soloSource _ _ Book.empty.ledger soloSender _
      twin_run).1
    obtain ⟨labels, hsample⟩ := @sampled_alone soloServer soloSource twinWorld twinLedger
      soloSender Nat (senderOutside 6 2) 1 (World.serverLockFree_of_all rfl) (by decide) rfl
    refine ⟨_, _, hserved.append (hweaken hsample), rfl, ?_, fun hall => ?_⟩
    · dsimp only
      rw [twinLedger_served, card_fileRange]
      decide
    · have hlast : ((repeatedId 1, 3) : FileByte) ∈
          offerBytes soloServer.offered.storedManifest.entries :=
        mem_offerBytes.mpr ⟨_, List.mem_singleton_self _, rfl, by decide⟩
      have hmem := hall hlast
      dsimp only at hmem
      rw [twinLedger_served, mem_fileRange] at hmem
      exact Nat.lt_irrefl _ hmem.2.2
  · obtain ⟨labels, hrun⟩ := soloWhole_reported
    have hserved := (@served_alone soloServer soloSource _ _ soloWholeLedger
      soloWholeReported.session _ soloExpired_run).1
    obtain ⟨labels', hsample⟩ := @sampled_alone soloServer soloSource soloExpired
      (bookAfter soloWhole soloWholeLedger [.clock, .cleanup (fromMillis 1000)]).ledger
      soloWholeReported.session Nat (senderOutside 0 1) 2 (World.serverLockFree_of_all rfl)
      (by decide) rfl
    exact ⟨_, _, _, _, hweaken hrun, rfl, hserved.append (hweaken hsample), rfl⟩

end ClipFerry.Product
