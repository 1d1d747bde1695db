import ClipFerry.Foundation.Transition
import ClipFerry.Local.StableFile
import ClipFerry.Protocol.Offer

namespace ClipFerry.Local

open VirtualTree Protocol Transition Checked

structure FileTreeSnapshot where
  entries : List FileSnapshot
deriving DecidableEq

-- a source is named by its place in the list of all sources ever created
structure LocalOfferEntry where
  snapshot : FileSnapshot
  source : Option Nat
deriving DecidableEq

structure LocalFileOffer where
  offerId : List.Vector UInt8 16
  createdAt : Nat
  expiresAt : Nat
  entries : List LocalOfferEntry
  originPayload : List UInt8
deriving DecidableEq

def privateOriginPrefix : List UInt8 := ("ClipFerry.SourceOffer.v1".toList.map fun c => c.toUInt8) ++ [0]

namespace LocalFileOffer

def sources (offer : LocalFileOffer) : List Nat := offer.entries.filterMap (·.source)

def remainingTtl (offer : LocalFileOffer) (now : Nat) : Nat := offer.expiresAt - now

end LocalFileOffer

def offerEntries (files : Nat) : List FileSnapshot → List LocalOfferEntry
  | [] => []
  | snapshot :: rest =>
    if snapshot.isDirectory = true then ⟨snapshot, none⟩ :: offerEntries files rest
    else ⟨snapshot, some files⟩ :: offerEntries (files + 1) rest

def treeSources (expiresAt : Nat) (tree : List FileSnapshot) : List StableFileSource :=
  (tree.filter fun snapshot => !snapshot.isDirectory).map fun snapshot => .new snapshot expiresAt

structure LocalOfferRegistry where
  current : Option LocalFileOffer
deriving DecidableEq

structure LocalWorld where
  sources : List StableFileSource
  registry : LocalOfferRegistry
  now : Nat

namespace LocalWorld

def empty : LocalWorld := ⟨[], ⟨none⟩, 0⟩

def revoke (world : LocalWorld) (offer : LocalFileOffer) : LocalWorld :=
  { world with sources := world.sources.mapIdx fun s source =>
      if s ∈ offer.sources then source.revoke else source }

def createTree (world : LocalWorld) (guid : Except HResult (List.Vector UInt8 16))
    (tree : FileTreeSnapshot) (ttl : Nat) : Except HResult (LocalFileOffer × LocalWorld) :=
  if ttl = 0 then .error .invalidArg
  else do
    let offerId ← guid
    match checkedAddInstant world.now ttl with
    | none => .error .invalidArg
    | some expiresAt => .ok (⟨offerId, world.now, expiresAt,
        offerEntries world.sources.length tree.entries, privateOriginPrefix ++ offerId.val⟩,
      { world with sources := world.sources ++ treeSources expiresAt tree.entries })

def replaceCurrent (world : LocalWorld) (offer : Option LocalFileOffer) : LocalWorld :=
  match world.registry.current with
  | none => { world with registry := ⟨offer⟩ }
  | some previous => ({ world with registry := ⟨offer⟩ } : LocalWorld).revoke previous

def publishTree (world : LocalWorld) (guid : Except HResult (List.Vector UInt8 16))
    (tree : FileTreeSnapshot) (ttl : Nat) : LocalWorld × Except HResult LocalFileOffer :=
  match world.createTree guid tree ttl with
  | .error error => (world, .error error)
  | .ok (offer, created) => (created.replaceCurrent (some offer), .ok offer)

def revokeCurrent (world : LocalWorld) : LocalWorld := world.replaceCurrent none

def readAt (world : LocalWorld) (disk : Disk) (s : Nat) (offset : UInt64) (length : Nat) :
    LocalWorld :=
  { world with sources := world.sources.modify s fun source =>
      (source.readAt disk world.now offset length).1 }

end LocalWorld

inductive LocalLabel where
  | publishTree (guid : Except HResult (List.Vector UInt8 16)) (tree : FileTreeSnapshot) (ttl : Nat)
  | revokeCurrent
  | readAt (disk : Disk) (s : Nat) (offset : UInt64) (length : Nat)
  | elapse (duration : Nat)

def LocalWorld.apply (world : LocalWorld) : LocalLabel → LocalWorld
  | .publishTree guid tree ttl => (world.publishTree guid tree ttl).1
  | .revokeCurrent => world.revokeCurrent
  | .readAt disk s offset length => world.readAt disk s offset length
  | .elapse duration => { world with now := world.now + duration }

def LocalStep (world : LocalWorld) (label : LocalLabel) (world' : LocalWorld) : Prop :=
  world' = world.apply label

theorem mem_sources {offer : LocalFileOffer} {s : Nat} :
    s ∈ offer.sources ↔ ∃ entry ∈ offer.entries, entry.source = some s := List.mem_filterMap

namespace LocalWorld

variable {world : LocalWorld} {guid : Except HResult (List.Vector UInt8 16)}
  {tree : FileTreeSnapshot} {ttl : Nat} {offer : LocalFileOffer} {created : LocalWorld}

theorem createTree_cases (h : world.createTree guid tree ttl = .ok (offer, created)) :
    offer.expiresAt = world.now + ttl ∧
      offer.entries = offerEntries world.sources.length tree.entries ∧
      created = { world with
        sources := world.sources ++ treeSources offer.expiresAt tree.entries } := by
  rw [createTree, guard_eq_ok] at h
  obtain ⟨-, h⟩ := h
  obtain ⟨offerId, -, h⟩ := bind_eq_ok.mp h
  split at h
  · cases h
  · rename_i expiresAt hexpires
    cases h
    exact ⟨checkedAddInstant_eq hexpires, rfl, rfl⟩

theorem publishTree_cases {world' : LocalWorld}
    (h : world.publishTree guid tree ttl = (world', .ok offer)) :
    ∃ created, world.createTree guid tree ttl = .ok (offer, created) ∧
      world' = created.replaceCurrent (some offer) := by
  rw [publishTree] at h
  split at h
  · cases h
  · rename_i offer' created hcreate
    cases h
    exact ⟨created, hcreate, rfl⟩

end LocalWorld

structure LocalWorld.Evolves (world world' : LocalWorld) : Prop where
  sources : ∀ (s : Nat) (source : StableFileSource), world.sources[s]? = some source →
    ∃ source', world'.sources[s]? = some source' ∧ source.Evolves source'
  now : world.now ≤ world'.now

namespace LocalWorld

variable {world world' : LocalWorld}

theorem Evolves.refl (world : LocalWorld) : world.Evolves world :=
  ⟨fun _ source h => ⟨source, h, .refl source⟩, Nat.le_refl _⟩

theorem Evolves.trans {world'' : LocalWorld} (h : world.Evolves world')
    (h' : world'.Evolves world'') : world.Evolves world'' where
  sources s source hsource := by
    obtain ⟨source', hsource', hevolves⟩ := h.sources s source hsource
    obtain ⟨source'', hsource'', hevolves'⟩ := h'.sources s source' hsource'
    exact ⟨source'', hsource'', hevolves.trans hevolves'⟩
  now := Nat.le_trans h.now h'.now

theorem revoke_evolves (world : LocalWorld) (offer : LocalFileOffer) :
    world.Evolves (world.revoke offer) where
  sources s source hsource := by
    refine ⟨_, by rw [revoke, List.getElem?_mapIdx, hsource]; rfl, ?_⟩
    split
    · exact source.revoke_evolves
    · exact .refl source
  now := Nat.le_refl _

theorem replaceCurrent_evolves (world : LocalWorld) (offer : Option LocalFileOffer) :
    world.Evolves (world.replaceCurrent offer) := by
  have hregistry : world.Evolves { world with registry := ⟨offer⟩ } :=
    ⟨(Evolves.refl world).sources, Nat.le_refl _⟩
  unfold replaceCurrent
  split
  · exact hregistry
  · exact hregistry.trans (revoke_evolves _ _)

theorem createTree_evolves {guid : Except HResult (List.Vector UInt8 16)} {tree : FileTreeSnapshot}
    {ttl : Nat} {offer : LocalFileOffer} {created : LocalWorld}
    (h : world.createTree guid tree ttl = .ok (offer, created)) : world.Evolves created := by
  obtain ⟨-, -, rfl⟩ := createTree_cases h
  refine ⟨fun s source hsource => ⟨source, ?_, .refl source⟩, Nat.le_refl _⟩
  rw [List.getElem?_append_left (List.getElem?_eq_some_iff.mp hsource).1]
  exact hsource

theorem apply_evolves (world : LocalWorld) (label : LocalLabel) :
    world.Evolves (world.apply label) := by
  cases label with
  | publishTree guid tree ttl =>
    simp only [LocalWorld.apply, publishTree]
    split
    · exact .refl world
    · rename_i offer created hcreate
      exact (createTree_evolves hcreate).trans (created.replaceCurrent_evolves _)
  | revokeCurrent => exact world.replaceCurrent_evolves none
  | readAt disk s offset length =>
    refine ⟨fun j source hsource => ?_, Nat.le_refl _⟩
    rw [LocalWorld.apply, LocalWorld.readAt, List.getElem?_modify, hsource]
    refine ⟨_, rfl, ?_⟩
    split
    · exact source.readAt_evolves disk world.now offset length
    · exact .refl source
  | elapse duration => exact ⟨(Evolves.refl world).sources, Nat.le_add_right _ _⟩

theorem run_evolves {labels : List LocalLabel} (h : Run LocalStep world labels world') :
    world.Evolves world' := by
  refine h.related Evolves.refl Evolves.trans ?_
  rintro s label t rfl
  exact s.apply_evolves label

end LocalWorld

end ClipFerry.Local
