import Mathlib.Algebra.Ring.Nat
import ClipFerry.Foundation.Transition
import ClipFerry.Product.Control

namespace ClipFerry.Product

open VirtualTree Protocol Server Local Settings Client Transition

variable {κ : Type}

/-! What the registries and the peer answer to one command; `group` is the result of a call on the
transfers of the lease. -/

structure CommandAnswers (κ : Type) where
  registry : Nat
  accept : AcceptAnswers
  group : Except IoError Unit
  outside : Outside κ
  now : Nat

namespace ProductSession

def controlRemote (session : ProductSession) (answers : CommandAnswers κ) : Except IoError Unit :=
  match session.remote with
  | none => .error noRemote
  | some _ => answers.group

def cancelRemote (session : ProductSession) (answers : CommandAnswers κ) :
    ProductSession × Except IoError Unit :=
  match session.remote with
  | none => (session, .error noRemote)
  | some lease =>
    if (answers.outside.registry lease.registry).localProgress.startedTransfers = 0 then
      (session.dropLease, .ok ())
    else (session, answers.group)

def performCommand (session : ProductSession) (answers : CommandAnswers κ) :
    ProductCommand → ProductSession × Except IoError Unit
  | .acceptPending => session.acceptPending answers.registry answers.accept
  | .pause | .resume => (session, session.controlRemote answers)
  | .cancel => session.cancelRemote answers

def handleCommand (session : ProductSession) (answers : CommandAnswers κ)
    (command : ProductCommand) : ProductSession :=
  let (performed, result) := session.performCommand answers command
  (performed.recordControl result).refreshProgress answers.outside answers.now

end ProductSession

inductive SessionOp (κ : Type) where
  | event (event : WorkerEvent) (registry : Nat) (answers : AcceptAnswers)
  | command (command : ProductCommand) (answers : CommandAnswers κ)
  | clipboard (observed : UInt32) (leaseCurrent : Bool) (capture : ClipboardCapture)
      (answers : PublishAnswers)
  | timer (outside : Outside κ) (now : Nat)

def SessionOp.run (toLowercase : Char → Text) (windowsText : HResult → String)
    (session : ProductSession) : SessionOp κ → ProductSession
  | .event received registry answers => session.handleEvent registry answers received
  | .command asked answers => session.handleCommand answers asked
  | .clipboard observed leaseCurrent capture answers =>
    session.handleClipboardUpdate toLowercase windowsText observed leaseCurrent capture answers
  | .timer outside now => session.refreshProgress outside now

inductive SessionMove (κ : Type) : ProductSession → Bool → ProductSession → Prop
  | note (session : ProductSession) (error : Option String) :
      SessionMove κ session false
        { session with snapshot := { session.snapshot with lastError := error } }
  | claim (session : ProductSession) (registry : LocalWorld) (sequence : Option UInt32) :
      SessionMove κ session false
        { session with registry := registry, lastClipboardSequence := sequence }
  | offer (session : ProductSession) {announcement : OfferAnnouncement}
      (hpeer : announcement.peer = session.settings.activePeer) :
      SessionMove κ session false (session.receiveOffer announcement)
  | install (session : ProductSession) (lease : ProductRemoteLease) (now : Nat) :
      SessionMove κ session true (session.installLease lease now)
  | publish (session : ProductSession) (source : LiveSourceOffer) (now : Nat) :
      SessionMove κ session true ((session.addSource source).resetSamples now)
  | drop (session : ProductSession) : SessionMove κ session false session.dropLease
  | refresh (session : ProductSession) (outside : Outside κ) (now : Nat) :
      SessionMove κ session false (session.refreshProgress outside now)

abbrev SessionMoves (κ : Type) : ProductSession → List Bool → ProductSession → Prop :=
  Run (SessionMove κ)

variable {session session' : ProductSession} {moves : List Bool} {result : Except IoError Unit}

theorem recordError_moves (session : ProductSession) (error : String) :
    SessionMoves κ session [false] (session.recordError error) :=
  .single (.note session (some error))

theorem recordControl_moves (session : ProductSession) (result : Except IoError Unit) :
    ∃ moves, SessionMoves κ session moves (session.recordControl result) ∧
      moves.count true = 0 := by
  cases result with
  | ok done => exact ⟨[], .nil, rfl⟩
  | error error => exact ⟨[false], recordError_moves session _, rfl⟩

theorem acceptPending_moves (registry : Nat) (answers : AcceptAnswers)
    (h : session.acceptPending registry answers = (session', result)) :
    ∃ moves, SessionMoves κ session moves session' ∧ moves.count true ≤ 1 := by
  rw [ProductSession.acceptPending] at h
  split at h
  · cases h
    exact ⟨[], .nil, Nat.zero_le 1⟩
  · cases h
    exact ⟨[true], .single (.install session _ _), Nat.le_refl 1⟩

theorem handleEvent_moves (session : ProductSession) (registry : Nat) (answers : AcceptAnswers)
    (event : WorkerEvent) :
    ∃ moves, SessionMoves κ session moves (session.handleEvent registry answers event) ∧
      moves.count true ≤ 1 := by
  cases event with
  | remoteOffer announcement =>
    rw [ProductSession.handleEvent]
    split
    · exact ⟨[false], recordError_moves session _, Nat.zero_le 1⟩
    · next hpeer =>
      have hoffer := Run.single (SessionMove.offer (κ := κ) session (not_not.mp hpeer))
      split
      · split
        · next accepted haccept =>
          obtain ⟨moves, hmoves, hcount⟩ := acceptPending_moves (κ := κ) registry answers haccept
          exact ⟨[false] ++ moves, hoffer.append hmoves, by simpa using hcount⟩
        · next refused error haccept =>
          obtain ⟨moves, hmoves, hcount⟩ := acceptPending_moves (κ := κ) registry answers haccept
          exact ⟨[false] ++ moves ++ [false],
            (hoffer.append hmoves).append (recordError_moves refused _), by simpa using hcount⟩
      · exact ⟨[false], hoffer, Nat.zero_le 1⟩
  | announcementResult result =>
    cases result with
    | ok done => exact ⟨[false], .single (.note session none), Nat.zero_le 1⟩
    | error error => exact ⟨[false], recordError_moves session _, Nat.zero_le 1⟩

theorem performCommand_moves (answers : CommandAnswers κ) (command : ProductCommand)
    (h : session.performCommand answers command = (session', result)) :
    ∃ moves, SessionMoves κ session moves session' ∧ moves.count true ≤ 1 := by
  cases command with
  | acceptPending => exact acceptPending_moves _ _ h
  | pause =>
    cases h
    exact ⟨[], .nil, Nat.zero_le 1⟩
  | resume =>
    cases h
    exact ⟨[], .nil, Nat.zero_le 1⟩
  | cancel =>
    rw [ProductSession.performCommand, ProductSession.cancelRemote] at h
    split at h
    · cases h
      exact ⟨[], .nil, Nat.zero_le 1⟩
    · split at h
      · cases h
        exact ⟨[false], .single (.drop session), Nat.zero_le 1⟩
      · cases h
        exact ⟨[], .nil, Nat.zero_le 1⟩

theorem handleCommand_moves (session : ProductSession) (answers : CommandAnswers κ)
    (command : ProductCommand) :
    ∃ moves, SessionMoves κ session moves (session.handleCommand answers command) ∧
      moves.count true ≤ 1 := by
  obtain ⟨performed, hperformed, hcount⟩ :=
    @performCommand_moves κ session _ (session.performCommand answers command).2 answers command rfl
  obtain ⟨recorded, hrecorded, hnone⟩ :=
    recordControl_moves (κ := κ) (session.performCommand answers command).1
      (session.performCommand answers command).2
  refine ⟨performed ++ recorded ++ [false],
    (hperformed.append hrecorded).snoc (.refresh _ answers.outside answers.now), ?_⟩
  simpa [hnone] using hcount

theorem publishPaths_moves (toLowercase : Char → Text) (windowsText : HResult → String)
    (answers : PublishAnswers)
    (h : session.publishPaths toLowercase windowsText answers = (session', result)) :
    ∃ moves, SessionMoves κ session moves session' ∧ moves.count true ≤ 1 := by
  rw [ProductSession.publishPaths] at h
  split at h
  · cases h
    exact ⟨[], .nil, Nat.zero_le 1⟩
  · split at h
    · cases h
      exact ⟨[false], .single (.claim session _ _), Nat.zero_le 1⟩
    · split at h
      · cases h
        exact ⟨[false], .single (.claim session _ _), Nat.zero_le 1⟩
      · cases h
        exact ⟨[false, true], .snoc (.single (.claim session _ _)) (.publish _ _ _), Nat.le_refl 1⟩

theorem handleClipboardUpdate_moves (toLowercase : Char → Text) (windowsText : HResult → String)
    (session : ProductSession) (observed : UInt32) (leaseCurrent : Bool)
    (capture : ClipboardCapture) (answers : PublishAnswers) :
    ∃ moves, SessionMoves κ session moves (session.handleClipboardUpdate toLowercase windowsText
      observed leaseCurrent capture answers) ∧ moves.count true ≤ 1 := by
  have hclaim (sequence : Option UInt32) := Run.single
    (SessionMove.claim (κ := κ) session session.registry sequence)
  rw [ProductSession.handleClipboardUpdate]
  dsimp only
  split
  · exact ⟨[false], hclaim _, Nat.zero_le 1⟩
  · cases capture with
    | other => exact ⟨[false], hclaim _, Nat.zero_le 1⟩
    | rejected reason =>
      exact ⟨[false, false], .snoc (hclaim _) (.note _ (some _)), Nat.zero_le 1⟩
    | failed error =>
      exact ⟨[false, false], .snoc (hclaim _) (.note _ (some _)), Nat.zero_le 1⟩
    | candidates sequence =>
      dsimp only
      split
      · next published hpublish =>
        obtain ⟨moves, hmoves, hcount⟩ :=
          publishPaths_moves (κ := κ) toLowercase windowsText answers hpublish
        exact ⟨[false] ++ moves, (hclaim _).append hmoves, by simpa using hcount⟩
      · next refused error hpublish =>
        obtain ⟨moves, hmoves, hcount⟩ :=
          publishPaths_moves (κ := κ) toLowercase windowsText answers hpublish
        exact ⟨[false] ++ moves ++ [false],
          ((hclaim _).append hmoves).append (recordError_moves refused _), by simpa using hcount⟩

theorem op_moves (toLowercase : Char → Text) (windowsText : HResult → String)
    (session : ProductSession) (op : SessionOp κ) :
    ∃ moves, SessionMoves κ session moves (op.run toLowercase windowsText session) ∧
      moves.count true ≤ 1 := by
  cases op with
  | event event registry answers => exact handleEvent_moves session registry answers event
  | command command answers => exact handleCommand_moves session answers command
  | clipboard observed leaseCurrent capture answers =>
    exact handleClipboardUpdate_moves toLowercase windowsText session observed leaseCurrent capture
      answers
  | timer outside now => exact ⟨[false], .single (.refresh session outside now), Nat.zero_le 1⟩

structure ProductTransferSnapshot.Fits (transfer : ProductTransferSnapshot)
    (summary : ProductManifestSummary) : Prop where
  totalSize : transfer.totalSize = summary.totalSize
  totalFiles : transfer.totalFiles = summary.files
  transferred : transfer.transferred ≤ summary.totalSize.toNat
  speed : transfer.state ≠ .running → transfer.bytesPerSecond = 0

structure ProductSession.Coherent (session : ProductSession) : Prop where
  pending : session.snapshot.pendingOffer = session.pending.isSome
  peer : ∀ announcement, session.pending = some announcement →
    announcement.peer = session.settings.activePeer
  sources : session.sources.length ≤ maxLiveSourceOffers
  receiving : session.activeDirection = some .remote → ∃ lease, session.remote = some lease ∧
    session.snapshot.lastManifest = some (summarizeManifest "接收" lease.manifest)
  sending : session.activeDirection = some .source → ∃ source,
    session.sources.getLast? = some source ∧
    session.snapshot.lastManifest = some (summarizeManifest "发送" source.manifest)
  shown : session.snapshot.transfer.isSome = session.snapshot.lastManifest.isSome
  fits : ∀ transfer summary, session.snapshot.transfer = some transfer →
    session.snapshot.lastManifest = some summary → transfer.Fits summary

theorem awaiting_fits (summary : ProductManifestSummary) :
    (ProductTransferSnapshot.awaiting summary).Fits summary :=
  ⟨rfl, rfl, Nat.zero_le _, fun _ => rfl⟩

namespace ProductSession

theorem Coherent.start (settings : AppSettings) (peerLabel : Text) (now : Nat) :
    (ProductSession.start settings peerLabel now).Coherent where
  pending := rfl
  peer announcement h := by cases h
  sources := Nat.zero_le _
  receiving h := by cases h
  sending h := by cases h
  shown := rfl
  fits transfer summary h := by cases h

theorem Coherent.offer (h : session.Coherent) {announcement : OfferAnnouncement}
    (hpeer : announcement.peer = session.settings.activePeer) :
    (session.receiveOffer announcement).Coherent where
  pending := rfl
  peer found hfound := by
    obtain rfl := Option.some.inj hfound
    exact hpeer
  sources := h.sources
  receiving := h.receiving
  sending := h.sending
  shown := h.shown
  fits := h.fits

theorem announce_fits {snapshot : ProductSnapshot} {summary shown : ProductManifestSummary}
    {transfer : ProductTransferSnapshot}
    (htransfer : (snapshot.announce summary).transfer = some transfer)
    (hshown : (snapshot.announce summary).lastManifest = some shown) : transfer.Fits shown := by
  obtain rfl := Option.some.inj htransfer
  obtain rfl := Option.some.inj hshown
  exact awaiting_fits summary

theorem Coherent.install (h : session.Coherent) (lease : ProductRemoteLease) (now : Nat) :
    (session.installLease lease now).Coherent where
  pending := rfl
  peer found hfound := by cases hfound
  sources := h.sources
  receiving _ := ⟨lease, rfl, rfl⟩
  sending hdirection := by cases hdirection
  shown := rfl
  fits transfer summary htransfer hsummary :=
    @announce_fits session.snapshot _ _ _ htransfer hsummary

theorem length_addSource (h : session.sources.length ≤ maxLiveSourceOffers)
    (source : LiveSourceOffer) :
    (session.addSource source).sources.length ≤ maxLiveSourceOffers := by
  rw [maxLiveSourceOffers] at h ⊢
  dsimp only [addSource]
  rw [List.length_append, List.length_singleton, maxLiveSourceOffers]
  split
  · rw [List.length_drop]
    omega
  · omega

theorem Coherent.publish (h : session.Coherent) (source : LiveSourceOffer) (now : Nat) :
    ((session.addSource source).resetSamples now).Coherent where
  pending := h.pending
  peer := h.peer
  sources := length_addSource h.sources source
  receiving hdirection := by cases hdirection
  sending _ := ⟨source, List.getLast?_concat, rfl⟩
  shown := rfl
  fits transfer summary htransfer hsummary :=
    @announce_fits session.snapshot _ _ _ htransfer hsummary

theorem Coherent.drop (h : session.Coherent) : session.dropLease.Coherent where
  pending := h.pending
  peer := h.peer
  sources := h.sources
  receiving hdirection := by cases hdirection
  sending hdirection := by cases hdirection
  shown := Option.isSome_map.trans h.shown
  fits transfer summary htransfer hsummary := by
    obtain ⟨before, hbefore, rfl⟩ := Option.map_eq_some_iff.mp htransfer
    have hfits := h.fits before summary hbefore hsummary
    exact ⟨hfits.totalSize, hfits.totalFiles, hfits.transferred, fun _ => rfl⟩

theorem Coherent.reading (h : session.Coherent) (hdirection : session.activeDirection ≠ none)
    (outside : Outside κ) : ∃ summary, session.snapshot.lastManifest = some summary ∧
      (session.reading outside).totalSize = summary.totalSize ∧
      (session.reading outside).totalFiles = summary.files ∧
      (session.reading outside).bytes ≤ summary.totalSize.toNat := by
  cases hactive : session.activeDirection with
  | none => exact absurd hactive hdirection
  | some direction =>
    cases direction with
    | remote =>
      obtain ⟨lease, hlease, hmanifest⟩ := h.receiving hactive
      refine ⟨_, hmanifest, ?_⟩
      rw [ProductSession.reading, hactive, hlease]
      exact ⟨rfl, rfl, Nat.min_le_right _ _⟩
    | source =>
      obtain ⟨source, hsource, hmanifest⟩ := h.sending hactive
      refine ⟨_, hmanifest, ?_⟩
      rw [ProductSession.reading, hactive, hsource]
      exact ⟨rfl, rfl, Nat.min_le_right _ _⟩

theorem smooth_settings (session : ProductSession) (now : Nat) (reading : ProgressReading) :
    (session.smooth now reading).settings = session.settings := by
  rw [smooth]
  split
  · rfl
  · split <;> rfl

theorem smooth_pending (session : ProductSession) (now : Nat) (reading : ProgressReading) :
    (session.smooth now reading).pending = session.pending := by
  rw [smooth]
  split
  · rfl
  · split <;> rfl

theorem Coherent.refresh (h : session.Coherent) (outside : Outside κ) (now : Nat) :
    (session.refreshProgress outside now).Coherent := by
  rw [refreshProgress]
  split
  · exact h
  · next hdirection =>
    obtain ⟨summary, hmanifest, htotal, hfiles, hbytes⟩ := h.reading hdirection outside
    have hsame := session.smooth_same now (session.reading outside)
    have hsettings := smooth_settings session now (session.reading outside)
    exact
      { pending := by
          dsimp only
          rw [hsame.snapshot, smooth_pending]
          exact h.pending
        peer := by
          dsimp only
          rw [smooth_pending, hsettings]
          exact h.peer
        sources := by
          dsimp only
          rw [hsame.sources]
          exact h.sources
        receiving := by
          dsimp only
          rw [hsame.activeDirection, hsame.remote, hsame.snapshot]
          exact h.receiving
        sending := by
          dsimp only
          rw [hsame.activeDirection, hsame.sources, hsame.snapshot]
          exact h.sending
        shown := by
          dsimp only
          rw [hsame.snapshot]
          exact Option.isSome_map.trans h.shown
        fits := by
          dsimp only
          rw [hsame.snapshot]
          intro transfer shown htransfer hshown
          obtain ⟨before, hbefore, rfl⟩ := Option.map_eq_some_iff.mp htransfer
          obtain rfl := Option.some.inj (hmanifest.symm.trans hshown)
          exact ⟨htotal, hfiles, hbytes, fun hstate => if_neg hstate⟩ }

end ProductSession

theorem move_coherent {begins : Bool} (h : session.Coherent)
    (hmove : SessionMove κ session begins session') : session'.Coherent := by
  cases hmove with
  | note error => exact ⟨h.pending, h.peer, h.sources, h.receiving, h.sending, h.shown, h.fits⟩
  | claim registry sequence =>
    exact ⟨h.pending, h.peer, h.sources, h.receiving, h.sending, h.shown, h.fits⟩
  | offer hpeer => exact h.offer hpeer
  | install lease now => exact h.install lease now
  | publish source now => exact h.publish source now
  | drop => exact h.drop
  | refresh outside now => exact h.refresh outside now

theorem move_generation {begins : Bool} (h : SessionMove κ session begins session') :
    session'.snapshot.transferGeneration =
        session.snapshot.transferGeneration + (if begins = true then 1 else 0) ∧
      (begins = false → session'.snapshot.lastManifest = session.snapshot.lastManifest) := by
  cases h with
  | note error => exact ⟨(UInt64.add_zero _).symm, fun _ => rfl⟩
  | claim registry sequence => exact ⟨(UInt64.add_zero _).symm, fun _ => rfl⟩
  | offer hpeer => exact ⟨(UInt64.add_zero _).symm, fun _ => rfl⟩
  | install lease now => exact ⟨rfl, fun h => by cases h⟩
  | publish source now => exact ⟨rfl, fun h => by cases h⟩
  | drop => exact ⟨(UInt64.add_zero _).symm, fun _ => rfl⟩
  | refresh outside now =>
    have hsame := session.smooth_same now (session.reading outside)
    rw [ProductSession.refreshProgress]
    split
    · exact ⟨(UInt64.add_zero _).symm, fun _ => rfl⟩
    · dsimp only
      rw [hsame.snapshot]
      exact ⟨(UInt64.add_zero _).symm, fun _ => rfl⟩

theorem moves_generation (h : SessionMoves κ session moves session') :
    session'.snapshot.transferGeneration =
        session.snapshot.transferGeneration + UInt64.ofNat (moves.count true) ∧
      (moves.count true = 0 → session'.snapshot.lastManifest = session.snapshot.lastManifest) := by
  induction h with
  | nil => exact ⟨(UInt64.add_zero _).symm, fun _ => rfl⟩
  | @snoc moves begins middle last run step ih =>
    obtain ⟨hgeneration, hmanifest⟩ := move_generation step
    rw [List.count_append, UInt64.ofNat_add]
    cases begins with
    | true =>
      refine ⟨?_, fun hnone => ?_⟩
      · rw [hgeneration, ih.1, UInt64.add_assoc]
        rfl
      · simp at hnone
    | false =>
      refine ⟨?_, fun hnone => ?_⟩
      · rw [hgeneration, ih.1, UInt64.add_assoc]
        rfl
      · exact (hmanifest rfl).trans (ih.2 (by simpa using hnone))

abbrev SessionRun (κ : Type) (toLowercase : Char → Text) (windowsText : HResult → String) :
    ProductSession → List (SessionOp κ) → ProductSession → Prop :=
  Run fun session op session' => session' = op.run toLowercase windowsText session

variable {toLowercase : Char → Text} {windowsText : HResult → String} {ops : List (SessionOp κ)}

theorem run_moves (h : SessionRun κ toLowercase windowsText session ops session') :
    ∃ moves, SessionMoves κ session moves session' ∧ moves.count true ≤ ops.length := by
  induction h with
  | nil => exact ⟨[], .nil, Nat.le_refl 0⟩
  | @snoc ops op middle last run step ih =>
    obtain ⟨moves, hmoves, hcount⟩ := ih
    obtain ⟨more, hmore, hone⟩ := op_moves toLowercase windowsText middle op
    subst step
    refine ⟨moves ++ more, hmoves.append hmore, ?_⟩
    rw [List.count_append, List.length_append, List.length_singleton]
    omega

theorem run_coherent (hstart : session.Coherent)
    (h : SessionRun κ toLowercase windowsText session ops session') : session'.Coherent := by
  obtain ⟨moves, hmoves, -⟩ := run_moves h
  exact hmoves.invariant (I := ProductSession.Coherent) move_coherent hstart

theorem same_generation (hshort : ops.length < 2 ^ 64)
    (h : SessionRun κ toLowercase windowsText session ops session')
    (hsame : session'.snapshot.transferGeneration = session.snapshot.transferGeneration) :
    session'.snapshot.lastManifest = session.snapshot.lastManifest := by
  obtain ⟨moves, hmoves, hcount⟩ := run_moves h
  obtain ⟨hgeneration, hmanifest⟩ := moves_generation hmoves
  apply hmanifest
  rw [hgeneration] at hsame
  have hzero : UInt64.ofNat (moves.count true) = 0 := UInt64.add_eq_left.mp hsame
  have hnat := congrArg UInt64.toNat hzero
  rw [UInt64.toNat_ofNat_of_lt' (by rw [UInt64.size]; omega)] at hnat
  exact hnat

theorem product_session_coherent (settings : AppSettings) (peerLabel : Text) (now : Nat)
    (hearlier : SessionRun κ toLowercase windowsText (.start settings peerLabel now) ops session) :
    session.Coherent ∧ ∀ later session', later.length < 2 ^ 64 →
      SessionRun κ toLowercase windowsText session later session' →
      session'.snapshot.transferGeneration = session.snapshot.transferGeneration →
      session'.snapshot.lastManifest = session.snapshot.lastManifest :=
  ⟨run_coherent (.start settings peerLabel now) hearlier,
    fun _ _ hshort hrun hsame => same_generation hshort hrun hsame⟩

def soloListing : OfferManifest := ⟨repeatedId 9, [⟨repeatedId 1, .basic ['a'] 5⟩], 1⟩

def soloOffered (manifest : Except IoError OfferManifest) : SessionOp Nat :=
  .event (.remoteOffer ⟨.v4 (soloHost 2) 50000, soloFingerprint⟩) 0 ⟨.ok (), manifest, 0⟩

def soloLater : List (SessionOp Nat) :=
  [soloOffered (.error unexpectedEof), .event (.announcementResult (.error unexpectedEof)) 0
    ⟨.ok (), .error unexpectedEof, 0⟩]

def soloTaken : ProductSession :=
  (soloOffered (.ok soloListing)).run (fun c => [c]) soloText (.start (soloSettings true) [] 0)

def soloFailed : ProductSession := soloLater.foldl (SessionOp.run (fun c => [c]) soloText) soloTaken

theorem product_session_coherent_solo :
    soloFailed.Coherent ∧ soloFailed.snapshot.lastError.isSome = true ∧
    soloTaken.snapshot.lastManifest = some (summarizeManifest "接收" soloListing) ∧
    soloFailed.snapshot.lastManifest = soloTaken.snapshot.lastManifest := by
  have htaken : SessionRun Nat (fun c => [c]) soloText (.start (soloSettings true) [] 0)
      [soloOffered (.ok soloListing)] soloTaken := .single rfl
  have hfailed : SessionRun Nat (fun c => [c]) soloText soloTaken soloLater soloFailed :=
    (Run.single rfl).snoc rfl
  obtain ⟨-, hsame⟩ := product_session_coherent (soloSettings true) [] 0 htaken
  obtain ⟨hcoherent, -⟩ := product_session_coherent (soloSettings true) [] 0 (htaken.append hfailed)
  exact ⟨hcoherent, rfl, rfl, hsame soloLater soloFailed (by decide) hfailed rfl⟩

end ClipFerry.Product
