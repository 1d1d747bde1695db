import ClipFerry.Protocol.Offer

namespace ClipFerry.Protocol.SecureOfferedFile

open VirtualTree Checked

variable {σ : Type} {len : σ → UInt64} {random : Nat → Except IoError ProtocolId} {i : Nat}
  {builder builder' : Builder σ} {items : List (VirtualFileDescriptor × Option σ)}

structure Given (builder builder' : Builder σ) (items : List (VirtualFileDescriptor × Option σ))
    (added : List OfferManifestEntry) : Prop where
  entries : builder'.entries = builder.entries ++ added
  descriptors : added.map (·.descriptor) = items.map Prod.fst
  kept : ∀ fileId, fileId ∉ added.map (·.fileId) →
    builder'.sources.lookup fileId = builder.sources.lookup fileId
  sources : (added.map (·.fileId)).Nodup → ∀ (index : Nat) (item : VirtualFileDescriptor × Option σ)
    (entry : OfferManifestEntry), items[index]? = some item → added[index]? = some entry →
      ∀ source, item.2 = some source → builder'.sources.lookup entry.fileId = some source

theorem pushEntry_given {item : VirtualFileDescriptor × Option σ}
    (h : pushEntry len (random i) builder item = .ok builder') :
    ∃ fileId, builder'.entries = builder.entries ++ [⟨fileId, item.1⟩] ∧
      (∀ other, other ≠ fileId → builder'.sources.lookup other = builder.sources.lookup other) ∧
      ∀ source, item.2 = some source → builder'.sources.lookup fileId = some source := by
  obtain ⟨-, h⟩ := guard_eq_ok.mp h
  obtain ⟨fileId, -, h⟩ := bind_eq_ok.mp h
  cases h
  refine ⟨fileId, rfl, fun other hother => ?_, fun source hsource => ?_⟩
  · cases item.2 with
    | none => rfl
    | some source => exact AList.lookup_insert_ne hother
  · rw [hsource]
    exact AList.lookup_insert _

theorem pushEntries_given (h : pushEntries len random i builder items = .ok builder') :
    ∃ added, Given builder builder' items added := by
  induction items generalizing i builder with
  | nil =>
    cases h
    exact ⟨[], (List.append_nil _).symm, rfl, fun _ _ => rfl, fun _ _ _ _ hitem => by cases hitem⟩
  | cons item rest ih =>
    obtain ⟨mid, hmid, hrest⟩ := bind_eq_ok.mp h
    obtain ⟨fileId, hentries, hothers, hsource⟩ := pushEntry_given hmid
    obtain ⟨added, hgiven⟩ := ih hrest
    refine ⟨⟨fileId, item.1⟩ :: added, ?_, ?_, fun other hother => ?_, fun hnodup => ?_⟩
    · rw [hgiven.entries, hentries, List.append_assoc, List.singleton_append]
    · rw [List.map_cons, List.map_cons, hgiven.descriptors]
    · rw [List.map_cons, List.mem_cons, not_or] at hother
      rw [hgiven.kept other hother.2, hothers other hother.1]
    · obtain ⟨hfresh, hnodup⟩ := List.nodup_cons.mp hnodup
      rintro (_ | index) found entry hfound hentry source hsome
      · cases hfound
        cases hentry
        rw [hgiven.kept fileId hfresh]
        exact hsource source hsome
      · exact hgiven.sources hnodup index found entry hfound hentry source hsome

theorem newTree_given {toLowercase : Char → Text} {now ttl : Nat} {offered : SecureOfferedFile σ}
    (h : newTree toLowercase len random now items ttl = .ok offered) :
    Given ⟨[], ∅⟩ ⟨offered.storedManifest.entries, offered.sources⟩ items
      offered.storedManifest.entries := by
  obtain ⟨-, h⟩ := guard_eq_ok.mp h
  split at h
  · cases h
  · obtain ⟨offerId, -, h⟩ := bind_eq_ok.mp h
    obtain ⟨builder, hbuilder, h⟩ := bind_eq_ok.mp h
    split at h
    · cases h
    · cases h
      obtain ⟨added, hgiven⟩ := pushEntries_given hbuilder
      obtain rfl : builder.entries = added := hgiven.entries
      exact hgiven

theorem find_of_nodup {entries : List OfferManifestEntry} {entry : OfferManifestEntry}
    (hnodup : (entries.map (·.fileId)).Nodup) (hentry : entry ∈ entries) :
    entries.find? (·.fileId = entry.fileId) = some entry := by
  induction entries with
  | nil => cases hentry
  | cons first rest ih =>
    obtain ⟨hfresh, hnodup⟩ := List.nodup_cons.mp hnodup
    rcases List.mem_cons.mp hentry with rfl | hrest
    · exact List.find?_cons_of_pos (by simp)
    · have hdiffers : first.fileId ≠ entry.fileId := fun hsame =>
        hfresh (List.mem_map.mpr ⟨entry, hrest, hsame.symm⟩)
      rw [List.find?_cons_of_neg (by simpa using hdiffers)]
      exact ih hnodup hrest

end ClipFerry.Protocol.SecureOfferedFile
