import ClipFerry.Protocol.Manifest
import ClipFerry.VirtualTree.Containment

namespace ClipFerry.Protocol

open VirtualTree LexicalPath Checked

-- `same` is the equality of paths under which an ancestor has to be declared
structure ContainedTree (toLowercase : Char → Text) (same : Text → Text → Prop)
    (entries : List OfferManifestEntry) : Prop where
  names : ∀ e ∈ entries, components e.descriptor.fileName ≠ [] ∧
    joinComponents (components e.descriptor.fileName) = e.descriptor.fileName ∧
    (∀ part ∈ components e.descriptor.fileName, SafeComponent part) ∧
    utf16Count e.descriptor.fileName < maxFileNameUnits
  contained : ∀ e ∈ entries, ∀ dir, StrictlyBelow (locate dir)
      (locate (push dir e.descriptor.fileName)) ∧
    locate (push dir e.descriptor.fileName) =
      ⟨(locate dir).root, (locate dir).parts ++ components e.descriptor.fileName⟩
  ancestors : ∀ e ∈ entries, ∀ k, 0 < k → k < (components e.descriptor.fileName).length →
    ∃ p ∈ entries, p.descriptor.isDirectory = true ∧
      same p.descriptor.fileName (joinComponents ((components e.descriptor.fileName).take k))
  distinct : (entries.map fun e => caseFoldPath toLowercase e.descriptor.fileName).Nodup

def sameFolded (toLowercase : Char → Text) (a b : Text) : Prop :=
  caseFoldPath toLowercase a = caseFoldPath toLowercase b

theorem ContainedTree.of_wellFormed {toLowercase : Char → Text}
    {entries : List OfferManifestEntry}
    (wf : WellFormedTree toLowercase (entries.map (·.descriptor))) :
    ContainedTree toLowercase (sameFolded toLowercase) entries where
  names := fun e he => by
    have hpath := wf.paths _ (List.mem_map_of_mem he)
    refine ⟨List.splitOn_ne_nil _ _, List.intercalate_splitOn _, ?_, validateVirtualPath_units hpath⟩
    exact fun part hpart => safeComponent_of_ok ((components_ok hpath).2 part hpart)
  contained := fun e he dir => by
    have hpath := wf.paths _ (List.mem_map_of_mem he)
    exact ⟨strictlyBelow_push (splitOnP_plain hpath) dir, locate_push_of_ok hpath dir⟩
  ancestors := fun e he k hk hlt => by
    obtain ⟨p, hp, hdir, hkey⟩ := wf.parents _ (List.mem_map_of_mem he) k hk hlt
    obtain ⟨entry, hentry, rfl⟩ := List.mem_map.mp hp
    exact ⟨entry, hentry, hdir, hkey⟩
  distinct := by simpa [List.map_map, key, Function.comp_def] using wf.distinct

theorem decodeManifestResponse_entries {toLowercase : Char → Text} {response : List UInt8}
    {manifest : OfferManifest} (h : decodeManifestResponse toLowercase response = .ok manifest) :
    (∃ count cursor, decodeEntries response count [] manifestHeaderLen =
      .ok (manifest.entries, cursor)) ∧
    validateVirtualDescriptorTree toLowercase (manifest.entries.map (·.descriptor)) = .ok () := by
  unfold decodeManifestResponse at h
  obtain ⟨⟨⟩, -, h⟩ := bind_eq_ok.mp h
  obtain ⟨-, h⟩ := guard_eq_ok.mp h
  obtain ⟨offerId, -, h⟩ := bind_eq_ok.mp h
  obtain ⟨ttl, -, h⟩ := bind_eq_ok.mp h
  obtain ⟨-, h⟩ := guard_eq_ok.mp h
  obtain ⟨count, -, h⟩ := bind_eq_ok.mp h
  obtain ⟨-, h⟩ := guard_eq_ok.mp h
  obtain ⟨minimum, -, h⟩ := bind_eq_ok.mp h
  obtain ⟨-, h⟩ := guard_eq_ok.mp h
  obtain ⟨⟨entries, cursor⟩, hentries, h⟩ := bind_eq_ok.mp h
  obtain ⟨-, h⟩ := guard_eq_ok.mp h
  cases hv : validateVirtualDescriptorTree toLowercase (entries.map (·.descriptor)) with
  | error e => rw [hv] at h; cases h
  | ok u =>
    rw [hv] at h
    obtain rfl := Except.ok.inj h
    exact ⟨⟨_, cursor, hentries⟩, hv⟩

theorem decodeManifestResponse_wellFormed {toLowercase : Char → Text} {response : List UInt8}
    {manifest : OfferManifest} (h : decodeManifestResponse toLowercase response = .ok manifest) :
    WellFormedTree toLowercase (manifest.entries.map (·.descriptor)) :=
  (validate_eq_ok_iff _).mp (decodeManifestResponse_entries h).2

theorem decodeEntry_fresh {response : List UInt8} {identifiers : List ProtocolId}
    {cursor next : Nat} {entry : OfferManifestEntry}
    (h : decodeEntry response identifiers cursor = .ok (entry, next)) :
    entry.fileId ∉ identifiers := by
  obtain ⟨fileId, -, h⟩ := bind_eq_ok.mp h
  obtain ⟨hfresh, h⟩ := guard_eq_ok.mp h
  obtain ⟨size, -, h⟩ := bind_eq_ok.mp h
  obtain ⟨attributes, -, h⟩ := bind_eq_ok.mp h
  split at h
  · cases h
  · obtain ⟨-, h⟩ := guard_eq_ok.mp h
    obtain ⟨creation, -, h⟩ := bind_eq_ok.mp h
    obtain ⟨access, -, h⟩ := bind_eq_ok.mp h
    obtain ⟨write, -, h⟩ := bind_eq_ok.mp h
    obtain ⟨nameLength, -, h⟩ := bind_eq_ok.mp h
    split at h
    · cases h
    · split at h
      · cases h
      · obtain ⟨fileName, -, h⟩ := bind_eq_ok.mp h
        cases h
        exact hfresh

theorem decodeEntries_nodup {response : List UInt8} {count cursor cursor' : Nat}
    {entries entries' : List OfferManifestEntry} (hnodup : (entries.map (·.fileId)).Nodup)
    (h : decodeEntries response count entries cursor = .ok (entries', cursor')) :
    (entries'.map (·.fileId)).Nodup := by
  induction count generalizing entries cursor with
  | zero =>
    cases h
    exact hnodup
  | succ count ih =>
    obtain ⟨⟨entry, next⟩, hentry, h⟩ := bind_eq_ok.mp h
    refine ih ?_ h
    rw [List.map_append, List.map_singleton]
    refine List.Nodup.append hnodup (List.nodup_singleton _) ?_
    intro fileId hold hnew
    rw [List.mem_singleton] at hnew
    subst hnew
    exact decodeEntry_fresh hentry hold

theorem decodeManifestResponse_nodup {toLowercase : Char → Text} {response : List UInt8}
    {manifest : OfferManifest} (h : decodeManifestResponse toLowercase response = .ok manifest) :
    (manifest.entries.map (·.fileId)).Nodup := by
  obtain ⟨⟨count, cursor, hentries⟩, -⟩ := decodeManifestResponse_entries h
  refine decodeEntries_nodup ?_ hentries
  exact List.nodup_nil

theorem received_manifest_contained {toLowercase : Char → Text} {response : List UInt8}
    {manifest : OfferManifest} (h : decodeManifestResponse toLowercase response = .ok manifest) :
    ContainedTree toLowercase (sameFolded toLowercase) manifest.entries :=
  .of_wellFormed (decodeManifestResponse_wellFormed h)

def mixedCaseManifest : OfferManifest where
  offerId := repeatedId 9
  entries := [⟨repeatedId 1, ⟨['D', 'I', 'R'], 0, fileAttributeDirectory, none, none, none⟩⟩,
    ⟨repeatedId 2, .basic ['D', 'i', 'r', '\\', 'a'] 5⟩]
  ttl := fromMillis 1

def mixedCaseResponse : List UInt8 :=
  manifestHeader mixedCaseManifest ++ mixedCaseManifest.entries.flatMap entryBytes

theorem mixedCaseResponse_decodes :
    decodeManifestResponse asciiLowercase mixedCaseResponse = .ok mixedCaseManifest :=
  decodeManifestResponse_bytes mixedCaseManifest ((validate_eq_ok_iff _).mp (by decide))
    (by decide) (by decide) (by decide)

theorem received_manifest_contained_mixed_case :
    ContainedTree asciiLowercase (sameFolded asciiLowercase) mixedCaseManifest.entries :=
  received_manifest_contained mixedCaseResponse_decodes

theorem received_ancestor_differs_in_case :
    ¬∀ response manifest, decodeManifestResponse asciiLowercase response = .ok manifest →
      ContainedTree asciiLowercase (· = ·) manifest.entries := by
  intro h
  obtain ⟨p, hp, -, hname⟩ := (h _ _ mixedCaseResponse_decodes).ancestors
    ⟨repeatedId 2, .basic ['D', 'i', 'r', '\\', 'a'] 5⟩ (by decide) 1 (by decide) (by decide)
  have hall : ∀ p ∈ mixedCaseManifest.entries, p.descriptor.fileName ≠ joinComponents
      ((components ['D', 'i', 'r', '\\', 'a']).take 1) := by decide
  exact hall p hp hname

end ClipFerry.Protocol
