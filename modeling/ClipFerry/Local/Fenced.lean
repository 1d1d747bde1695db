import ClipFerry.Local.StartedOffer

namespace ClipFerry.Local

open VirtualTree Transition Checked

def LocalWorld.Fenced (world : LocalWorld) : Prop :=
  ∀ (s : Nat) (source : StableFileSource), world.sources[s]? = some source →
    (∀ offer, world.registry.current = some offer → s ∉ offer.sources) → source.revoked = true

theorem offerEntries_covers (expiresAt : Nat) {files k : Nat} {tree : List FileSnapshot}
    (hk : k < (treeSources expiresAt tree).length) :
    files + k ∈ (offerEntries files tree).filterMap (·.source) := by
  induction tree generalizing files k with
  | nil => cases hk
  | cons snapshot rest ih =>
    cases hdir : snapshot.isDirectory with
    | true =>
      have hsources : treeSources expiresAt (snapshot :: rest) = treeSources expiresAt rest := by
        simp [treeSources, hdir]
      rw [hsources] at hk
      rw [offerEntries, if_pos hdir, List.filterMap_cons_none rfl]
      exact ih hk
    | false =>
      have hsources : treeSources expiresAt (snapshot :: rest) =
          .new snapshot expiresAt :: treeSources expiresAt rest := by
        simp [treeSources, hdir]
      rw [hsources, List.length_cons] at hk
      have hfirst : (⟨snapshot, some files⟩ : LocalOfferEntry).source = some files := rfl
      rw [offerEntries, if_neg (by simp [hdir]), List.filterMap_cons_some hfirst]
      cases k with
      | zero => exact List.mem_cons_self
      | succ k =>
        refine List.mem_cons_of_mem _ ?_
        have hrest := @ih (files + 1) k (Nat.lt_of_succ_lt_succ hk)
        rwa [Nat.add_right_comm, Nat.add_assoc] at hrest

namespace LocalWorld

variable {world world' : LocalWorld} {offer : LocalFileOffer}
  {guid : Except HResult (List.Vector UInt8 16)} {tree : FileTreeSnapshot} {ttl s : Nat}

theorem Fenced.empty : Fenced empty := fun _ _ h => by cases h

theorem fenced_replaceCurrent {next : Option LocalFileOffer}
    (h : ∀ (s : Nat) (source : StableFileSource), world.sources[s]? = some source →
      (∀ offer, world.registry.current = some offer → s ∉ offer.sources) →
        (∀ offer, next = some offer → s ∉ offer.sources) → source.revoked = true) :
    (world.replaceCurrent next).Fenced := by
  intro s source hsource hnext
  rw [registry_replaceCurrent] at hnext
  cases hcurrent : world.registry.current with
  | none =>
    have hkept : (world.replaceCurrent next).sources = world.sources := by
      simp only [replaceCurrent, hcurrent]
    rw [hkept] at hsource
    refine h s source hsource (fun offer hoffer => ?_) hnext
    rw [hcurrent] at hoffer
    cases hoffer
  | some previous =>
    have hrevoked : (world.replaceCurrent next).sources =
        (({ world with registry := ⟨next⟩ } : LocalWorld).revoke previous).sources := by
      simp only [replaceCurrent, hcurrent]
    rw [hrevoked, revoke, List.getElem?_mapIdx, Option.map_eq_some_iff] at hsource
    obtain ⟨before, hbefore, rfl⟩ := hsource
    split
    · rfl
    · next hother =>
      refine h s before hbefore (fun offer hoffer => ?_) hnext
      rw [hcurrent] at hoffer
      cases hoffer
      exact hother

theorem Fenced.readAt (h : world.Fenced) (disk : Disk) (r : Nat) (offset : UInt64) (length : Nat) :
    (world.readAt disk r offset length).Fenced := by
  intro s source hsource hcurrent
  rw [LocalWorld.readAt, List.getElem?_modify, Option.map_eq_map, Option.map_eq_some_iff] at hsource
  obtain ⟨before, hbefore, rfl⟩ := hsource
  have hrevoked := h s before hbefore hcurrent
  split
  · exact (before.readAt_evolves disk world.now offset length).revoked hrevoked
  · exact hrevoked

theorem Fenced.apply (h : world.Fenced) (label : LocalLabel) : (world.apply label).Fenced := by
  cases label with
  | publishTree guid tree ttl =>
    simp only [LocalWorld.apply, publishTree]
    split
    · exact h
    · next offer created hcreate =>
      obtain ⟨-, hentries, rfl⟩ := createTree_cases hcreate
      refine fenced_replaceCurrent fun s source hsource hcurrent hnext => ?_
      rcases Nat.lt_or_ge s world.sources.length with hold | hnew
      · exact h s source ((List.getElem?_append_left hold).symm.trans hsource) hcurrent
      · have hplace : s - world.sources.length <
            (treeSources offer.expiresAt tree.entries).length := by
          have hlt := (List.getElem?_eq_some_iff.mp hsource).1
          rw [List.length_append] at hlt
          omega
        have hcovered := @offerEntries_covers offer.expiresAt world.sources.length _ _ hplace
        rw [Nat.add_sub_cancel' hnew, ← hentries] at hcovered
        exact absurd hcovered (hnext offer rfl)
  | revokeCurrent =>
    exact fenced_replaceCurrent fun s source hsource hcurrent _ => h s source hsource hcurrent
  | readAt disk s offset length => exact h.readAt disk s offset length
  | elapse duration => exact h

theorem fenced_of_run {labels : List LocalLabel} (h : Run LocalStep empty labels world) :
    world.Fenced := by
  refine h.invariant ?_ Fenced.empty
  rintro s label t hs rfl
  exact hs.apply label

theorem refused_later {source : StableFileSource} {labels : List LocalLabel}
    (hsource : world.sources[s]? = some source) (hrevoked : source.revoked = true)
    (hstate : ∀ context, source.state ≠ .active context) (h : Run LocalStep world labels world') :
    ∃ source' : StableFileSource, world'.sources[s]? = some source' ∧
      ∀ disk now offset length, length ≠ 0 →
        ∃ error, (source'.readAt disk now offset length).2 = .error error := by
  obtain ⟨source', hsource', hevolves⟩ := (run_evolves h).sources s source hsource
  refine ⟨source', hsource', fun disk now offset length hlength => ?_⟩
  refine refused_of_revoked (hevolves.revoked hrevoked) (fun context hactive => ?_) disk now offset
    hlength
  rcases hevolves.activated context hactive with hbefore | ⟨hlive, -⟩
  · exact hstate context hbefore
  · rw [hrevoked] at hlive
    cases hlive

end LocalWorld

end ClipFerry.Local
