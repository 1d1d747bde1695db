import ClipFerry.Product.TotalSize
import ClipFerry.Product.Progress
import ClipFerry.Server.SentBytes

namespace ClipFerry.Product

open Foundation Protocol Server Transition WordSum

/-! One call of `metrics`: `unique_bytes` under the lock of the server, then the counters. -/

inductive Sampler where
  | idle
  | summing (todo : List Nat) (sum : UInt64)
  | loading (uniqueBytes : UInt64)
  | counting (uniqueBytes : UInt64) (begunTransfers : Nat)

def Sampler.holdsServerLock : Sampler → Bool
  | .summing _ _ => true
  | _ => false

structure SenderWorld where
  world : World
  ledger : Ledger
  sampler : Sampler
  session : ProductSession

def SenderWorld.book (s : SenderWorld) : Book := ⟨s.world.shared, s.ledger⟩

structure ProductSession.Sending (session : ProductSession) (source : LiveSourceOffer) : Prop where
  direction : session.activeDirection = some .source
  latest : session.sources.getLast? = some source
  shown : session.snapshot.transfer.isSome = true

def ProductSession.reported (session : ProductSession) : Option (Nat × ProductTransferState) :=
  session.snapshot.transfer.map fun transfer => (transfer.transferred, transfer.state)

inductive SenderLabel where
  | server (label : Label)
  | sample

inductive SenderStep (server : ServerState) (source : LiveSourceOffer) :
    SenderWorld → SenderLabel → SenderWorld → Prop
  | server {s : SenderWorld} {label : Label} {world : World}
      (hlocked : s.sampler.holdsServerLock = true → ∀ u ∈ label.updates, u.keepsTables = true)
      (h : Step server s.world label world) :
      SenderStep server source s (.server label)
        { s with world := world, ledger := (label.updates.foldl Book.run s.book).ledger }
  | lock {s : SenderWorld} (hidle : s.sampler = .idle) (hfree : s.world.ServerLockFree) :
      SenderStep server source s .sample
        { s with sampler := .summing s.world.shared.transfers.values 0 }
  | add {s : SenderWorld} {todo : List Nat} {sum : UInt64} {i : Nat} {session : TransferSession}
      (hsampler : s.sampler = .summing todo sum) (hi : i ∈ todo)
      (hsession : s.world.shared.sessions[i]? = some session) :
      SenderStep server source s .sample { s with
        sampler := .summing (todo.erase i) (sum + .ofNat session.inner.coverage.uniqueBytes) }
  | unlock {s : SenderWorld} {sum : UInt64} (hsampler : s.sampler = .summing [] sum) :
      SenderStep server source s .sample { s with sampler := .loading sum }
  | begun {s : SenderWorld} {uniqueBytes : UInt64} (hsampler : s.sampler = .loading uniqueBytes) :
      SenderStep server source s .sample
        { s with sampler := .counting uniqueBytes s.world.shared.metrics.begunTransfers }
  | refresh {s : SenderWorld} {κ : Type} {uniqueBytes : UInt64} {begunTransfers now : Nat}
      {outside : Outside κ} (hsampler : s.sampler = .counting uniqueBytes begunTransfers)
      (hmetrics : outside.metrics source.server = ⟨begunTransfers, uniqueBytes.toNat,
        s.world.shared.metrics.cancelledTransfers⟩) :
      SenderStep server source s .sample
        { s with sampler := .idle, session := s.session.refreshProgress outside now }

structure SenderStart (server : ServerState) (source : LiveSourceOffer) (s : SenderWorld) :
    Prop where
  world : ∃ now trusted, s.world = World.start now trusted
  ledger : s.ledger = Book.empty.ledger
  sampler : s.sampler = .idle
  sending : s.session.Sending source
  awaiting : s.session.reported = some (0, .awaitingPaste)
  manifest : ∃ now, source.manifest = server.offered.manifest now
  ids : (server.offered.storedManifest.entries.map (·.fileId)).Nodup

/-! Every update of the server is one that the book of its sessions admits. -/

def OrderlyStep (server : ServerState) (source : LiveSourceOffer) (s : SenderWorld)
    (label : SenderLabel) (s' : SenderWorld) : Prop :=
  SenderStep server source s label s' ∧ ∀ l, label = .server l →
    s.book.AdmitsAll server.offered.storedManifest.entries l.updates

theorem OrderlyStep.sampled {server : ServerState} {source : LiveSourceOffer} {s s' : SenderWorld}
    (h : SenderStep server source s .sample s') : OrderlyStep server source s .sample s' := by
  refine ⟨h, ?_⟩
  rintro l ⟨⟩

theorem ProductSession.Sending.refresh {κ : Type} {session : ProductSession}
    {source : LiveSourceOffer} (h : session.Sending source) (outside : Outside κ) (now : Nat) :
    (session.refreshProgress outside now).Sending source ∧
      (session.refreshProgress outside now).reported =
        (let reading := ProgressReading.ofSource (outside.metrics source.server) source.manifest
        some (reading.bytes, reading.state)) := by
  obtain ⟨transfer, htransfer⟩ := Option.isSome_iff_exists.mp h.shown
  have hreading : session.reading outside =
      .ofSource (outside.metrics source.server) source.manifest := by
    rw [reading, h.direction, h.latest]
  have hsome : ¬session.activeDirection = none := by
    rw [h.direction]
    exact Option.some_ne_none _
  have hsame := session.smooth_same now (session.reading outside)
  rw [refreshProgress, if_neg hsome]
  refine ⟨⟨hsame.activeDirection.trans h.direction, ?_, ?_⟩, ?_⟩
  · exact (congrArg List.getLast? hsame.sources).trans h.latest
  · rw [Option.isSome_map, hsame.snapshot, htransfer]
    rfl
  · rw [reported]
    dsimp only
    rw [hsame.snapshot, htransfer, hreading]
    rfl

end ClipFerry.Product
